import IdlBind.Proofs.Token.Identifiers

set_option autoImplicit false

/-! # The pieces of a text

A lexer reads a text in pieces: blanks and comments, and behind them the characters of one token or
of what should have been one. The pieces follow each other without gaps, and which ones they are
depends on the characters alone; the position only counts them (`exists_piece`). -/

namespace IdlBind.Lexer

/-! ## Blanks and comments -/

/-- Blanks and complete comments. A line comment is complete with the line feed that ends it. -/
inductive IsFiller : List Char → Prop
  | nil : IsFiller []
  | blank {c : Char} {cs : List Char} : Text.isBlank c = true → IsFiller cs → IsFiller (c :: cs)
  | lineComment {body cs : List Char} : '\n' ∉ body → IsFiller cs →
      IsFiller ('/' :: '/' :: (body ++ '\n' :: cs))
  | blockComment {body cs : List Char} : ¬['*', '/'] <:+: body → IsFiller cs →
      IsFiller ('/' :: '*' :: (body ++ '*' :: '/' :: cs))

/-- Does a blank or a comment, complete or not, come first? -/
def StartsGap : List Char → Prop
  | [] => False
  | c :: cs => Text.isBlank c = true ∨ c = '/' ∧ (cs.head? = some '/' ∨ cs.head? = some '*')

theorem skipGap_of_not_startsGap {cs : List Char} (h : ¬StartsGap cs) (p : Position) :
    skipGap .blank cs p = (none, ⟨cs, p⟩) := by
  cases cs with
  | nil => rfl
  | cons c cs =>
    obtain ⟨hblank, hcomment⟩ := not_or.1 h
    rw [skipGap_blank_cons, if_neg hblank]
    · rintro rest rfl rfl
      exact hcomment ⟨rfl, .inl rfl⟩
    · rintro rest rfl rfl
      exact hcomment ⟨rfl, .inr rfl⟩

theorem skipGap_lineComment_start (cs : List Char) (p : Position) :
    skipGap .blank ('/' :: '/' :: cs) p = skipGap .lineComment cs (p.after ['/', '/']) := rfl

theorem skipGap_blockComment_start (cs : List Char) (p : Position) :
    skipGap .blank ('/' :: '*' :: cs) p = skipGap (.blockComment p) cs (p.after ['/', '*']) := rfl

theorem skipGap_lineComment_cons (c : Char) (cs : List Char) (p : Position) :
    skipGap .lineComment (c :: cs) p
      = skipGap (if c = '\n' then .blank else .lineComment) cs (p.next c) := rfl

theorem skipGap_lineComment_append {body : List Char} (h : '\n' ∉ body) (cs : List Char)
    (p : Position) :
    skipGap .lineComment (body ++ cs) p = skipGap .lineComment cs (p.after body) := by
  induction body generalizing p with
  | nil => rfl
  | cons c body ih =>
    obtain ⟨hc, hbody⟩ := not_or.1 (mt List.mem_cons.2 h)
    rw [List.cons_append, skipGap_lineComment_cons, if_neg (Ne.symm hc)]
    exact ih hbody (p.next c)

/-- The first character of a piece without the closing pair does not start that pair. -/
theorem not_closes_of_cons {a b c : Char} {body : List Char} (h : ¬[a, b] <:+: c :: body) :
    ¬[a, b] <:+: body ∧ ∀ rest, c = a → body = b :: rest → False := by
  refine ⟨fun hbody => h (List.infix_cons hbody), ?_⟩
  rintro rest rfl rfl
  exact h ⟨[], rest, rfl⟩

theorem skipGap_blockComment_append {body : List Char} (h : ¬['*', '/'] <:+: body)
    (start : Position) (cs : List Char) (p : Position) :
    skipGap (.blockComment start) (body ++ '*' :: '/' :: cs) p
      = skipGap .blank cs (p.after (body ++ ['*', '/'])) := by
  induction body generalizing p with
  | nil => rfl
  | cons c body ih =>
    obtain ⟨hbody, hclose⟩ := not_closes_of_cons h
    rw [List.cons_append, skipGap_blockComment_cons]
    · exact ih hbody (p.next c)
    · intro rest hstar hslash
      cases body with
      | nil => exact absurd (List.cons.inj hslash).1 (by decide)
      | cons d body =>
        obtain ⟨rfl, -⟩ := List.cons.inj hslash
        exact hclose body hstar rfl

theorem skipGap_blockComment_open {body : List Char} (h : ¬['*', '/'] <:+: body)
    (start p : Position) :
    skipGap (.blockComment start) body p = (some start, ⟨[], p.after body⟩) := by
  induction body generalizing p with
  | nil => rfl
  | cons c body ih =>
    obtain ⟨hbody, hclose⟩ := not_closes_of_cons h
    rw [skipGap_blockComment_cons start p hclose]
    exact ih hbody (p.next c)

theorem skipGap_filler {filler : List Char} (h : IsFiller filler) (cs : List Char) (p : Position) :
    skipGap .blank (filler ++ cs) p = skipGap .blank cs (p.after filler) := by
  induction h generalizing p with
  | nil => rfl
  | @blank c filler hc _ ih =>
    have hslash : c ≠ '/' := by
      rintro rfl
      exact absurd hc (by decide)
    rw [List.cons_append, skipGap_blank_cons p (fun _ h _ => hslash h) (fun _ h _ => hslash h),
      if_pos hc]
    exact ih (p.next c)
  | @lineComment body filler hbody _ ih =>
    have hskip : skipGap .blank ('/' :: '/' :: (body ++ '\n' :: (filler ++ cs))) p
        = skipGap .blank (filler ++ cs) ((((p.after ['/', '/']).after body)).next '\n') := by
      rw [skipGap_lineComment_start, skipGap_lineComment_append hbody]
      rfl
    simp only [List.cons_append, List.append_assoc, hskip, ih, Position.after_cons,
      Position.after_append, Position.after_nil]
  | @blockComment body filler hbody _ ih =>
    have hskip : skipGap .blank ('/' :: '*' :: (body ++ '*' :: '/' :: (filler ++ cs))) p
        = skipGap .blank (filler ++ cs) ((p.after ['/', '*']).after (body ++ ['*', '/'])) := by
      rw [skipGap_blockComment_start, skipGap_blockComment_append hbody]
    simp only [List.cons_append, List.append_assoc, hskip, ih, Position.after_cons,
      Position.after_append, Position.after_nil]

/-- Two characters do not follow each other in a text, or there is a first place where they do. -/
theorem exists_first_pair (a b : Char) (cs : List Char) :
    ¬[a, b] <:+: cs ∨ ∃ body rest, cs = body ++ a :: b :: rest ∧ ¬[a, b] <:+: body := by
  induction cs with
  | nil => exact .inl (by simp)
  | cons c cs ih =>
    by_cases hpair : [a, b] <+: c :: cs
    · obtain ⟨rest, hrest⟩ := hpair
      exact .inr ⟨[], rest, hrest.symm, by simp⟩
    · rcases ih with hnone | ⟨body, rest, rfl, hbody⟩
      · exact .inl fun h => (List.infix_cons_iff.1 h).elim hpair hnone
      · refine .inr ⟨c :: body, rest, rfl, fun h => ?_⟩
        rcases List.infix_cons_iff.1 h with hfront | hinner
        · exact hpair (hfront.trans ⟨a :: b :: rest, rfl⟩)
        · exact hbody hinner

/-- Every text starts with blanks and complete comments, behind which there is something else or a
    comment without an end. -/
theorem exists_filler (cs : List Char) :
    ∃ filler rest, cs = filler ++ rest ∧ IsFiller filler ∧
      (¬StartsGap rest ∨ (∃ body, rest = '/' :: '/' :: body ∧ '\n' ∉ body) ∨
        ∃ body, rest = '/' :: '*' :: body ∧ ¬['*', '/'] <:+: body) := by
  induction hn : cs.length using Nat.strongRecOn generalizing cs with
  | ind n ih =>
    subst hn
    by_cases hgap : StartsGap cs
    · rcases cs with _ | ⟨c, cs⟩
      · exact absurd hgap id
      rcases hgap with hblank | ⟨rfl, hslash | hstar⟩
      · obtain ⟨filler, rest, rfl, hfiller, hrest⟩ := ih cs.length (by simp) cs rfl
        exact ⟨c :: filler, rest, rfl, .blank hblank hfiller, hrest⟩
      · obtain ⟨body, rfl⟩ := List.head?_eq_some_iff.1 hslash
        by_cases hend : '\n' ∈ body
        · obtain ⟨comment, behind, rfl, hcomment⟩ := List.eq_append_cons_of_mem hend
          obtain ⟨filler, rest, rfl, hfiller, hrest⟩ :=
            ih behind.length (by simp only [List.length_cons, List.length_append]; omega) behind rfl
          exact ⟨_, rest, by simp, .lineComment hcomment hfiller, hrest⟩
        · exact ⟨[], _, rfl, .nil, .inr (.inl ⟨body, rfl, hend⟩)⟩
      · obtain ⟨body, rfl⟩ := List.head?_eq_some_iff.1 hstar
        rcases exists_first_pair '*' '/' body with hopen | ⟨comment, behind, rfl, hcomment⟩
        · exact ⟨[], _, rfl, .nil, .inr (.inr ⟨body, rfl, hopen⟩)⟩
        · obtain ⟨filler, rest, rfl, hfiller, hrest⟩ :=
            ih behind.length (by simp only [List.length_cons, List.length_append]; omega) behind rfl
          exact ⟨_, rest, by simp, .blockComment hcomment hfiller, hrest⟩
    · exact ⟨[], cs, rfl, .nil, .inl hgap⟩

/-! ## Strings and code blocks -/

/-- What stands between the quotes of a string, and the text of the string. -/
inductive IsQuoted : List Char → List Char → Prop
  | nil : IsQuoted [] []
  | escape {c : Char} {body text : List Char} : IsQuoted body text →
      IsQuoted ('\\' :: c :: body) (unescape c :: text)
  | plain {c : Char} {body text : List Char} : c ≠ '"' → c ≠ '\\' → IsQuoted body text →
      IsQuoted (c :: body) (c :: text)

theorem readString_plain {c : Char} (hquote : c ≠ '"') (hbackslash : c ≠ '\\') (cs : List Char)
    (p : Position) :
    readString (c :: cs) p
      = ((readString cs (p.next c)).1.map (c :: ·), (readString cs (p.next c)).2) := by
  rw [readString.eq_def]
  split <;> simp_all

theorem readString_quoted {body text : List Char} (h : IsQuoted body text) (cs : List Char)
    (p : Position) :
    readString (body ++ cs) p
      = ((readString cs (p.after body)).1.map (text ++ ·), (readString cs (p.after body)).2) := by
  induction h generalizing p with
  | nil => simp
  | @escape c body text _ ih =>
    rw [List.cons_append, List.cons_append, readString, ih]
    simp only [Option.map_map]
    rfl
  | @plain c body text hquote hbackslash _ ih =>
    rw [List.cons_append, readString_plain hquote hbackslash, ih]
    simp only [Option.map_map]
    rfl

/-- Behind an opening quote there is a string up to the closing quote, or up to the end, where a
    backslash may be left over. -/
theorem exists_quoted (cs : List Char) :
    ∃ body text tail, cs = body ++ tail ∧ IsQuoted body text ∧
      ((∃ rest, tail = '"' :: rest) ∨ tail = [] ∨ tail = ['\\']) := by
  induction hn : cs.length using Nat.strongRecOn generalizing cs with
  | ind n ih =>
    subst hn
    rcases cs with _ | ⟨c, cs⟩
    · exact ⟨[], [], [], rfl, .nil, .inr (.inl rfl)⟩
    by_cases hquote : c = '"'
    · subst hquote
      exact ⟨[], [], _, rfl, .nil, .inl ⟨cs, rfl⟩⟩
    by_cases hbackslash : c = '\\'
    · subst hbackslash
      rcases cs with _ | ⟨c, cs⟩
      · exact ⟨[], [], _, rfl, .nil, .inr (.inr rfl)⟩
      · obtain ⟨body, text, tail, rfl, hbody, htail⟩ :=
          ih cs.length (by simp only [List.length_cons]; omega) cs rfl
        exact ⟨'\\' :: c :: body, _, tail, rfl, .escape hbody, htail⟩
    · obtain ⟨body, text, tail, rfl, hbody, htail⟩ := ih cs.length (by simp) cs rfl
      exact ⟨c :: body, _, tail, rfl, .plain hquote hbackslash hbody, htail⟩

theorem readCode_cons {c : Char} {cs : List Char} (p : Position)
    (hend : ∀ rest, c = '%' → cs = '}' :: rest → False) :
    readCode (c :: cs) p
      = ((readCode cs (p.next c)).1.map (c :: ·), (readCode cs (p.next c)).2) := by
  rw [readCode.eq_def]
  split <;> simp_all

theorem readCode_closed {code : List Char} (h : ¬['%', '}'] <:+: code) (cs : List Char)
    (p : Position) :
    readCode (code ++ '%' :: '}' :: cs) p = (some code, ⟨cs, p.after (code ++ ['%', '}'])⟩) := by
  induction code generalizing p with
  | nil => rfl
  | cons c code ih =>
    obtain ⟨hcode, hclose⟩ := not_closes_of_cons h
    rw [List.cons_append, readCode_cons, ih hcode]
    · rfl
    · intro rest hpercent hbrace
      cases code with
      | nil => exact absurd (List.cons.inj hbrace).1 (by decide)
      | cons d code =>
        obtain ⟨rfl, -⟩ := List.cons.inj hbrace
        exact hclose code hpercent rfl

theorem readCode_open {code : List Char} (h : ¬['%', '}'] <:+: code) (p : Position) :
    readCode code p = (none, ⟨[], p.after code⟩) := by
  induction code generalizing p with
  | nil => rfl
  | cons c code ih =>
    obtain ⟨hcode, hclose⟩ := not_closes_of_cons h
    rw [readCode_cons p hclose, ih hcode]
    rfl

/-! ## Numbers -/

/-- The sign of a number. -/
def signText (negative : Bool) : List Char := if negative then ['-'] else []

/-- Can the character be part of a decimal number? -/
def IsDecimal (c : Char) : Prop := c.isDigit = true ∨ c ∈ ['.', 'e', 'E', '+', '-']

/-- The characters of a number behind its sign, and what they denote. A decimal number of digits
    alone is an integer. -/
inductive IsNumeral (negative : Bool) : List Char → Except LexicalError TokenKind → Prop
  | hex {x : Char} {digits : List Char} : x = 'x' ∨ x = 'X' →
      (∀ c ∈ digits, Number.isHexDigit c = true) →
      IsNumeral negative ('0' :: x :: digits) (hexToken negative digits)
  | decimal {c : Char} {cs : List Char} : c.isDigit = true ∨ c = '.' →
      (∀ d ∈ c :: cs, IsDecimal d) →
      IsNumeral negative (c :: cs) (decimalToken negative (c :: cs) (!(c :: cs).all Char.isDigit))

theorem isDecimal_decimalText (float : Bool) (cs : List Char) :
    ∀ c ∈ (decimalText float cs).1, IsDecimal c := by
  have hmark : ∀ {c : Char}, (decide (c = 'e') || decide (c = 'E')) = true → IsDecimal c := by
    intro c h
    obtain rfl | rfl : c = 'e' ∨ c = 'E' := by simpa using h
    · exact .inr (by simp)
    · exact .inr (by simp)
  fun_induction decimalText float cs with
  | case1 => simp
  | case2 float c cs hc text kind rest hread ih =>
    rw [hread] at ih
    exact List.forall_mem_cons.2 ⟨.inl hc, ih⟩
  | case3 float c cs hc hpoint text kind rest hread ih =>
    rw [hread] at ih
    obtain rfl : c = '.' := by simp_all
    exact List.forall_mem_cons.2 ⟨.inr (by simp), ih⟩
  | case4 float c hc hpoint he => exact List.forall_mem_singleton.2 (hmark he)
  | case5 float c hc hpoint he d cs hsign text kind rest hread ih =>
    rw [hread] at ih
    refine List.forall_mem_cons.2 ⟨hmark he, List.forall_mem_cons.2 ⟨.inr ?_, ih⟩⟩
    obtain rfl | rfl : d = '+' ∨ d = '-' := by simpa using hsign
    · simp
    · simp
  | case6 float c hc hpoint he d cs hsign text kind rest hread ih =>
    rw [hread] at ih
    exact List.forall_mem_cons.2 ⟨hmark he, ih⟩
  | case7 float c cs hc hpoint he => simp

/-- A decimal number is a floating-point one as soon as not all of it are digits. -/
theorem float_decimalText (float : Bool) (cs : List Char) :
    (decimalText float cs).2.1 = (float || !(decimalText float cs).1.all Char.isDigit) := by
  fun_induction decimalText float cs <;> simp_all

/-- A digit or a point is the first character of the number that starts with it. -/
theorem decimalText_cons {c : Char} (h : c.isDigit = true ∨ c = '.') (cs : List Char) :
    ∃ text, (decimalText false (c :: cs)).1 = c :: text := by
  rw [decimalText.eq_def]
  rcases h with hc | rfl
  · exact ⟨(decimalText false cs).1, by simp only [hc, if_true]⟩
  · exact ⟨(decimalText true cs).1, rfl⟩

theorem exists_unsigned (negative : Bool) {c : Char} (h : c.isDigit = true ∨ c = '.')
    (cs : List Char) :
    ∃ text rest outcome, c :: cs = text ++ rest ∧ IsNumeral negative text outcome ∧
      ∀ p, readUnsigned negative (c :: cs) p = (outcome, ⟨rest, p.after text⟩) := by
  have hdecimal : ∃ text rest outcome, c :: cs = text ++ rest ∧ IsNumeral negative text outcome ∧
      ∀ p, readUnsigned.readDecimal negative (c :: cs) p = (outcome, ⟨rest, p.after text⟩) := by
    obtain ⟨text, htext⟩ := decimalText_cons h cs
    have hall := isDecimal_decimalText false (c :: cs)
    have hfloat := float_decimalText false (c :: cs)
    have happend := decimalText_append false (c :: cs)
    rw [htext] at hall hfloat happend
    refine ⟨c :: text, _, _, happend.symm, .decimal h hall, fun p => ?_⟩
    rw [readUnsigned.readDecimal, htext, hfloat]
    rfl
  by_cases hzero : c = '0'
  · subst hzero
    rcases cs with _ | ⟨x, cs⟩
    · exact hdecimal
    by_cases hx : (x = 'x' || x = 'X') = true
    · refine ⟨'0' :: x :: cs.takeWhile Number.isHexDigit, cs.dropWhile Number.isHexDigit, _, ?_,
        .hex (by simpa using hx) (List.all_eq_true.1 List.all_takeWhile), fun p => ?_⟩
      · simp
      · rw [readUnsigned_zero, if_pos hx]
        rfl
    · simp only [readUnsigned_zero, if_neg hx]
      exact hdecimal
  · simp only [readUnsigned_of_ne negative hzero]
    exact hdecimal

theorem exists_numeral {c : Char} {cs : List Char} (h : startsNumber c cs = true) :
    ∃ negative text rest outcome, c :: cs = signText negative ++ text ++ rest ∧
      IsNumeral negative text outcome ∧
      ∀ p, readNumber (c :: cs) p = (outcome, ⟨rest, p.after (signText negative ++ text)⟩) := by
  by_cases hminus : c = '-'
  · subst hminus
    obtain ⟨d, ds, rfl, hd⟩ : ∃ d ds, cs = d :: ds ∧ (d.isDigit = true ∨ d = '.') := by
      rcases cs with _ | ⟨d, ds⟩
      · exact absurd h (by decide)
      · exact ⟨d, ds, rfl, by simpa [startsNumber] using h⟩
    obtain ⟨text, rest, outcome, hcs, hnumeral, hread⟩ := exists_unsigned true hd ds
    refine ⟨true, text, rest, outcome, by rw [hcs]; rfl, hnumeral, fun p => ?_⟩
    exact hread (p.next '-')
  · have hc : c.isDigit = true ∨ c = '.' := by
      simp only [startsNumber, Bool.or_eq_true, Bool.and_eq_true, beq_iff_eq] at h
      exact h.elim (·.imp id And.left) fun h => absurd h.1 hminus
    obtain ⟨text, rest, outcome, hcs, hnumeral, hread⟩ := exists_unsigned false hc cs
    refine ⟨false, text, rest, outcome, hcs, hnumeral, fun p => ?_⟩
    rw [readNumber_of_ne hminus]
    exact hread p

/-! ## Tokens -/

/-- The characters of a token, or of what should have been one, in front of what is still to be
    read. An unexpected character is not read. -/
inductive IsLexeme : List Char → List Char → Except LexicalError TokenKind → Prop
  | eof : IsLexeme [] [] (.ok .eof)
  | string {body text rest : List Char} : IsQuoted body text →
      IsLexeme ('"' :: (body ++ ['"'])) rest (.ok (.string (String.ofList text)))
  | openString {body text tail : List Char} : IsQuoted body text → tail = [] ∨ tail = ['\\'] →
      IsLexeme ('"' :: (body ++ tail)) [] (.error .unterminatedString)
  | codeBlock {code rest : List Char} : ¬['%', '}'] <:+: code →
      IsLexeme ('%' :: '{' :: (code ++ ['%', '}'])) rest (.ok (.codeBlock (String.ofList code)))
  | openCodeBlock {code : List Char} : ¬['%', '}'] <:+: code →
      IsLexeme ('%' :: '{' :: code) [] (.error .unterminatedCodeBlock)
  | ellipsis {rest : List Char} : IsLexeme ['.', '.', '.'] rest (.ok .ellipsis)
  | dots {rest : List Char} : rest.head? ≠ some '.' →
      IsLexeme ['.', '.'] rest (.error .incompleteEllipsis)
  | numeral {negative : Bool} {text rest : List Char} {outcome : Except LexicalError TokenKind} :
      IsNumeral negative text outcome → IsLexeme (signText negative ++ text) rest outcome
  | ident {c : Char} {cs rest : List Char} : startsIdent c = true →
      (∀ d ∈ cs, continuesIdent d = true) →
      IsLexeme (c :: cs) rest (.ok (.ident (String.ofList (c :: cs))))
  | punct {c : Char} {rest : List Char} : isPunct c = true → IsLexeme [c] rest (.ok (.punct c))
  | unexpected {c : Char} {rest : List Char} : startsIdent c = false → isPunct c = false →
      IsLexeme [] (c :: rest) (.error (.unexpectedCharacter c))

theorem exists_lexeme (cs : List Char) :
    ∃ lexeme rest outcome, cs = lexeme ++ rest ∧ IsLexeme lexeme rest outcome ∧
      ∀ p, readKind cs p = (outcome, ⟨rest, p.after lexeme⟩) := by
  rcases cs with _ | ⟨c, cs⟩
  · exact ⟨[], [], _, rfl, .eof, fun p => rfl⟩
  by_cases hquote : c = '"'
  · subst hquote
    obtain ⟨body, text, tail, rfl, hbody, ⟨rest, rfl⟩ | htail⟩ := exists_quoted cs
    · refine ⟨_, rest, _, by simp, .string hbody, fun p => ?_⟩
      rw [readKind, readString_quoted hbody]
      simp [readString, Position.after_append]
    · refine ⟨_, [], _, by simp, .openString hbody htail, fun p => ?_⟩
      rw [readKind, readString_quoted hbody]
      rcases htail with rfl | rfl
      · simp [readString]
      · simp [readString, Position.after_append]
  by_cases hcode : c = '%' ∧ ∃ rest, cs = '{' :: rest
  · obtain ⟨rfl, rest, rfl⟩ := hcode
    rcases exists_first_pair '%' '}' rest with hopen | ⟨code, behind, rfl, hcode⟩
    · refine ⟨_, [], _, by simp, .openCodeBlock hopen, fun p => ?_⟩
      rw [readKind, readCode_open hopen]
      rfl
    · refine ⟨_, behind, _, by simp, .codeBlock hcode, fun p => ?_⟩
      rw [readKind, readCode_closed hcode]
      rfl
  by_cases hdots : c = '.' ∧ ∃ rest, cs = '.' :: rest
  · obtain ⟨rfl, rest, rfl⟩ := hdots
    by_cases hthird : rest.head? = some '.'
    · obtain ⟨behind, rfl⟩ := List.head?_eq_some_iff.1 hthird
      exact ⟨_, behind, _, rfl, .ellipsis, fun p => rfl⟩
    · refine ⟨_, rest, _, rfl, .dots hthird, fun p => ?_⟩
      rw [readKind]
      rintro behind rfl
      exact hthird rfl
  have hread : ∀ p, readKind (c :: cs) p = _ := fun p => readKind_cons p hquote
    (fun rest hc hcs => hcode ⟨hc, rest, hcs⟩) (fun rest hc hcs => hdots ⟨hc, rest, hcs⟩)
  by_cases hnumber : startsNumber c cs = true
  · obtain ⟨negative, text, rest, outcome, hcs, hnumeral, hnumber'⟩ := exists_numeral hnumber
    exact ⟨_, rest, outcome, hcs, .numeral hnumeral, fun p => by
      rw [hread, if_pos hnumber, hnumber']⟩
  by_cases hident : startsIdent c = true
  · refine ⟨c :: cs.takeWhile continuesIdent, cs.dropWhile continuesIdent, _, by simp,
      .ident hident (List.all_eq_true.1 List.all_takeWhile), fun p => ?_⟩
    rw [hread, if_neg hnumber, if_pos hident]
  by_cases hpunct : isPunct c = true
  · refine ⟨[c], cs, _, rfl, .punct hpunct, fun p => ?_⟩
    rw [hread, if_neg hnumber, if_neg hident, if_pos hpunct]
    rfl
  · refine ⟨[], c :: cs, _, rfl,
      .unexpected (Bool.eq_false_iff.2 hident) (Bool.eq_false_iff.2 hpunct), fun p => ?_⟩
    rw [hread, if_neg hnumber, if_neg hident, if_neg hpunct]
    rfl

/-! ## Reading a piece -/

/-- A token or an error at a place. -/
def placed (outcome : Except LexicalError TokenKind) (p : Position) : Except ParseError Token :=
  match outcome with
  | .ok kind => .ok ⟨kind, p⟩
  | .error cause => .error (.lexical cause p)

/-- What is skipped in front of a lexeme, the lexeme, what is left behind it, and what it is read
    as. A line comment may end with the text; a block comment without an end is a lexeme. -/
inductive IsPiece : (skipped lexeme rest : List Char) → Except LexicalError TokenKind → Prop
  | lexeme {filler lexeme rest : List Char} {outcome : Except LexicalError TokenKind} :
      IsFiller filler → ¬StartsGap (lexeme ++ rest) → IsLexeme lexeme rest outcome →
      IsPiece filler lexeme rest outcome
  | lineComment {filler body : List Char} : IsFiller filler → '\n' ∉ body →
      IsPiece (filler ++ '/' :: '/' :: body) [] [] (.ok .eof)
  | blockComment {filler body : List Char} : IsFiller filler → ¬['*', '/'] <:+: body →
      IsPiece filler ('/' :: '*' :: body) [] (.error .unterminatedComment)

/-- A lexer reads the next piece, whatever its position. The result stands at the lexeme, and the
    lexer then stands behind it. -/
theorem exists_piece (cs : List Char) :
    ∃ skipped lexeme rest outcome, cs = skipped ++ (lexeme ++ rest) ∧
      IsPiece skipped lexeme rest outcome ∧
      ∀ p, (Lexer.mk cs p).next
        = (placed outcome (p.after skipped), ⟨rest, p.after (skipped ++ lexeme)⟩) := by
  obtain ⟨filler, behind, rfl, hfiller, hstop | ⟨body, rfl, hbody⟩ | ⟨body, rfl, hbody⟩⟩ :=
    exists_filler cs
  · obtain ⟨lexeme, rest, outcome, rfl, hlexeme, hread⟩ := exists_lexeme behind
    refine ⟨filler, lexeme, rest, outcome, rfl, .lexeme hfiller hstop hlexeme, fun p => ?_⟩
    unfold next
    dsimp only
    rw [skipGap_filler hfiller, skipGap_of_not_startsGap hstop]
    dsimp only
    rw [hread, Position.after_append]
    cases outcome <;> rfl
  · refine ⟨_, [], [], _, by simp, .lineComment hfiller hbody, fun p => ?_⟩
    have hgap : skipGap .lineComment body ((p.after filler).after ['/', '/'])
        = (none, ⟨[], p.after (filler ++ '/' :: '/' :: body)⟩) := by
      have hend := skipGap_lineComment_append hbody [] ((p.after filler).after ['/', '/'])
      rw [List.append_nil] at hend
      rw [hend, Position.after_append]
      rfl
    unfold next
    dsimp only
    rw [skipGap_filler hfiller, skipGap_lineComment_start, hgap, List.append_nil]
    rfl
  · refine ⟨filler, _, [], _, by simp, .blockComment hfiller hbody, fun p => ?_⟩
    unfold next
    dsimp only
    rw [skipGap_filler hfiller, skipGap_blockComment_start, skipGap_blockComment_open hbody,
      Position.after_append]
    rfl

theorem exists_piece_of_ok {l l' : Lexer} {t : Token} (h : l.next = (.ok t, l')) :
    ∃ skipped lexeme, l.rest = skipped ++ (lexeme ++ l'.rest) ∧
      IsPiece skipped lexeme l'.rest (.ok t.kind) ∧ t.position = l.position.after skipped ∧
      l'.position = l.position.after (skipped ++ lexeme) := by
  obtain ⟨skipped, lexeme, rest, outcome, hcs, hpiece, hnext⟩ := exists_piece l.rest
  obtain ⟨ht, rfl⟩ := Prod.mk.inj ((hnext l.position).symm.trans h)
  cases outcome with
  | ok kind =>
    obtain rfl := Except.ok.inj ht
    exact ⟨skipped, lexeme, hcs, hpiece, rfl, rfl⟩
  | error cause => exact absurd ht (by simp [placed])

/-! ## What is in a piece -/

theorem IsNumeral.kind_cases {negative : Bool} {text : List Char}
    {outcome : Except LexicalError TokenKind} (h : IsNumeral negative text outcome)
    {kind : TokenKind} (hkind : outcome = .ok kind) :
    (∃ value, kind = .integer value) ∨ ∃ value, kind = .float value := by
  cases h with
  | hex => exact .inl (hexToken_cases hkind)
  | decimal => exact decimalToken_cases hkind

theorem IsNumeral.text_ne_nil {negative : Bool} {text : List Char}
    {outcome : Except LexicalError TokenKind} (h : IsNumeral negative text outcome) :
    text ≠ [] := by
  cases h <;> simp

/-- Only the end of the file is a token without characters. -/
theorem IsLexeme.ne_nil {lexeme rest : List Char} {outcome : Except LexicalError TokenKind}
    (h : IsLexeme lexeme rest outcome) {kind : TokenKind} (hkind : outcome = .ok kind)
    (heof : kind ≠ .eof) : lexeme ≠ [] := by
  cases h with
  | eof => exact absurd (Except.ok.inj hkind).symm heof
  | numeral hnumeral => simp [hnumeral.text_ne_nil]
  | unexpected => exact absurd hkind (by simp)
  | _ => simp

/-- The end of the file is behind the last character. -/
theorem IsLexeme.eq_nil {lexeme rest : List Char} {outcome : Except LexicalError TokenKind}
    (h : IsLexeme lexeme rest outcome) (heof : outcome = .ok .eof) : lexeme = [] ∧ rest = [] := by
  cases h with
  | eof => exact ⟨rfl, rfl⟩
  | numeral hnumeral =>
    rcases hnumeral.kind_cases heof with ⟨value, hvalue⟩ | ⟨value, hvalue⟩
    · exact absurd hvalue (by simp)
    · exact absurd hvalue (by simp)
  | _ => exact absurd heof (by simp)

/-- What is read as a token is a lexeme: in front of the end of the file a line comment may be open,
    but nothing else. -/
theorem IsPiece.isLexeme {skipped lexeme rest : List Char} {kind : TokenKind}
    (h : IsPiece skipped lexeme rest (.ok kind)) : IsLexeme lexeme rest (.ok kind) := by
  cases h with
  | lexeme _ _ hlexeme => exact hlexeme
  | lineComment => exact .eof

theorem IsPiece.ne_nil {skipped lexeme rest : List Char} {kind : TokenKind}
    (h : IsPiece skipped lexeme rest (.ok kind)) (heof : kind ≠ .eof) : lexeme ≠ [] :=
  h.isLexeme.ne_nil rfl heof

theorem IsPiece.eq_nil {skipped lexeme rest : List Char}
    (h : IsPiece skipped lexeme rest (.ok .eof)) : lexeme = [] ∧ rest = [] :=
  h.isLexeme.eq_nil rfl

end IdlBind.Lexer
