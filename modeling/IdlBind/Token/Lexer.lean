import IdlBind.ParseError
import IdlBind.Text.Blank

set_option autoImplicit false

/-! # From characters to tokens

`Lexer.next` reads one token. An error leaves the lexer where reading stopped, so that reading can
go on: in front of a character that starts no token, behind everything else that was looked at.

`tokenize` reads a whole text. It ends because every token but the last is at least one character
long (`Lexer.next_rest_lt`). -/

namespace IdlBind

/-- The characters still to be read, and the position of the first of them. -/
structure Lexer where
  rest : List Char
  position : Position
  deriving DecidableEq, Repr

namespace Lexer

/-- A lexer at the start of a text. -/
def ofString (source : String) : Lexer := ⟨source.toList, .start⟩

/-! ## Character classes -/

/-- An ASCII letter or an underscore. -/
def startsIdent (c : Char) : Bool := c.isAlpha || c == '_'

/-- An ASCII letter or digit, an underscore or a hyphen. -/
def continuesIdent (c : Char) : Bool := c.isAlphanum || c == '_' || c == '-'

/-- A character that is a token of its own. -/
def isPunct (c : Char) : Bool := "{}()[];:,=<>?*-&|.".toList.contains c

/-- A number starts with a digit, with a point before a digit, or with a minus before a digit or a
    point. -/
def startsNumber (c : Char) (following : List Char) : Bool :=
  c.isDigit ||
    (c == '.' && following.head?.any Char.isDigit) ||
    (c == '-' && following.head?.any fun d => d.isDigit || d == '.')

/-! ## Between tokens -/

/-- What the characters between two tokens are part of. -/
inductive Gap where
  | blank
  | lineComment
  | blockComment (start : Position)
  deriving DecidableEq, Repr

/-- Skips blanks and comments. The first component is the start of a block comment that does not
    end. -/
def skipGap : Gap → List Char → Position → Option Position × Lexer
  | .blank, [], p => (none, ⟨[], p⟩)
  | .blank, '/' :: '/' :: cs, p => skipGap .lineComment cs (p.after ['/', '/'])
  | .blank, '/' :: '*' :: cs, p => skipGap (.blockComment p) cs (p.after ['/', '*'])
  | .blank, c :: cs, p =>
    if Text.isBlank c then skipGap .blank cs (p.next c) else (none, ⟨c :: cs, p⟩)
  | .lineComment, [], p => (none, ⟨[], p⟩)
  | .lineComment, c :: cs, p => skipGap (if c = '\n' then .blank else .lineComment) cs (p.next c)
  | .blockComment start, [], p => (some start, ⟨[], p⟩)
  | .blockComment _, '*' :: '/' :: cs, p => skipGap .blank cs (p.after ['*', '/'])
  | .blockComment start, c :: cs, p => skipGap (.blockComment start) cs (p.next c)

theorem skipGap_blank_cons {c : Char} {cs : List Char} (p : Position)
    (hline : ∀ rest, c = '/' → cs = '/' :: rest → False)
    (hblock : ∀ rest, c = '/' → cs = '*' :: rest → False) :
    skipGap .blank (c :: cs) p
      = if Text.isBlank c then skipGap .blank cs (p.next c) else (none, ⟨c :: cs, p⟩) := by
  rw [skipGap.eq_def]
  split <;> simp_all

theorem skipGap_blockComment_cons (start : Position) {c : Char} {cs : List Char} (p : Position)
    (hend : ∀ rest, c = '*' → cs = '/' :: rest → False) :
    skipGap (.blockComment start) (c :: cs) p = skipGap (.blockComment start) cs (p.next c) := by
  rw [skipGap.eq_def]
  split <;> simp_all

/-! ## Strings and code blocks -/

/-- The character that a backslash and `c` stand for. -/
def unescape (c : Char) : Char :=
  match c with
  | 'n' => '\n'
  | 't' => '\t'
  | 'r' => '\r'
  | c => c

/-- Reads a string behind its opening quote; `none` if there is no closing quote. -/
def readString : List Char → Position → Option (List Char) × Lexer
  | [], p => (none, ⟨[], p⟩)
  | '"' :: cs, p => (some [], ⟨cs, p.next '"'⟩)
  | ['\\'], p => (none, ⟨[], p.next '\\'⟩)
  | '\\' :: c :: cs, p =>
    let (text, l) := readString cs (p.after ['\\', c])
    (text.map (unescape c :: ·), l)
  | c :: cs, p =>
    let (text, l) := readString cs (p.next c)
    (text.map (c :: ·), l)

/-- Reads a code block behind its opening mark; `none` if there is no closing mark. -/
def readCode : List Char → Position → Option (List Char) × Lexer
  | [], p => (none, ⟨[], p⟩)
  | '%' :: '}' :: cs, p => (some [], ⟨cs, p.after ['%', '}']⟩)
  | c :: cs, p =>
    let (code, l) := readCode cs (p.next c)
    (code.map (c :: ·), l)

/-! ## Numbers -/

/-- The text of a decimal number, whether it is a floating-point one, and what follows it. A point
    belongs to it only before another point or exponent mark; an exponent mark always does, with a
    sign behind it. -/
def decimalText : Bool → List Char → List Char × Bool × List Char
  | float, [] => ([], float, [])
  | float, c :: cs =>
    if c.isDigit then
      let (text, kind, rest) := decimalText float cs
      (c :: text, kind, rest)
    else if c = '.' && !float then
      let (text, kind, rest) := decimalText true cs
      (c :: text, kind, rest)
    else if c = 'e' || c = 'E' then
      match cs with
      | [] => ([c], true, [])
      | d :: ds =>
        if d = '+' || d = '-' then
          let (text, kind, rest) := decimalText true ds
          (c :: d :: text, kind, rest)
        else
          let (text, kind, rest) := decimalText true (d :: ds)
          (c :: text, kind, rest)
    else ([], float, c :: cs)

/-- The number that a decimal text denotes. -/
def decimalToken (negative : Bool) (digits : List Char) (float : Bool) :
    Except LexicalError TokenKind :=
  let text := if negative then '-' :: digits else digits
  if float then
    match Number.Binary64.ofText? text with
    | some value => .ok (.float value)
    | none => .error (.malformedFloat (String.ofList text))
  else
    match Number.ofDecimalDigits negative digits with
    | .ok value => .ok (.integer value)
    | .error cause => .error (.malformedInteger (String.ofList text) cause)

/-- The integer that hexadecimal digits denote. -/
def hexToken (negative : Bool) (digits : List Char) : Except LexicalError TokenKind :=
  match Number.ofHexDigits negative digits with
  | .ok value => .ok (.integer value)
  | .error cause => .error (.malformedHex cause)

/-- Reads a number behind its sign: `0x` or `0X` and hexadecimal digits, or a decimal text. -/
def readUnsigned (negative : Bool) (cs : List Char) (p : Position) :
    Except LexicalError TokenKind × Lexer :=
  match cs with
  | '0' :: x :: rest =>
    if x = 'x' || x = 'X' then
      let digits := rest.takeWhile Number.isHexDigit
      (hexToken negative digits,
        ⟨rest.dropWhile Number.isHexDigit, (p.after ['0', x]).after digits⟩)
    else readDecimal
  | _ => readDecimal
where
  /-- Reads a decimal text. -/
  readDecimal : Except LexicalError TokenKind × Lexer :=
    let read := decimalText false cs
    (decimalToken negative read.1 read.2.1, ⟨read.2.2, p.after read.1⟩)

/-- Reads a number with an optional minus. -/
def readNumber (cs : List Char) (p : Position) : Except LexicalError TokenKind × Lexer :=
  match cs with
  | '-' :: rest => readUnsigned true rest (p.next '-')
  | _ => readUnsigned false cs p

/-! ## Tokens -/

/-- Reads the token that starts at the first character; without characters that is the end of the
    file. -/
def readKind (cs : List Char) (p : Position) : Except LexicalError TokenKind × Lexer :=
  match cs with
  | [] => (.ok .eof, ⟨[], p⟩)
  | '"' :: rest =>
    match readString rest (p.next '"') with
    | (some text, l) => (.ok (.string (String.ofList text)), l)
    | (none, l) => (.error .unterminatedString, l)
  | '%' :: '{' :: rest =>
    match readCode rest (p.after ['%', '{']) with
    | (some code, l) => (.ok (.codeBlock (String.ofList code)), l)
    | (none, l) => (.error .unterminatedCodeBlock, l)
  | '.' :: '.' :: '.' :: rest => (.ok .ellipsis, ⟨rest, p.after ['.', '.', '.']⟩)
  | '.' :: '.' :: rest => (.error .incompleteEllipsis, ⟨rest, p.after ['.', '.']⟩)
  | c :: rest =>
    if startsNumber c rest then readNumber cs p
    else if startsIdent c then
      let name := c :: rest.takeWhile continuesIdent
      (.ok (.ident (String.ofList name)), ⟨rest.dropWhile continuesIdent, p.after name⟩)
    else if isPunct c then (.ok (.punct c), ⟨rest, p.next c⟩)
    else (.error (.unexpectedCharacter c), ⟨cs, p⟩)

theorem readKind_cons {c : Char} {cs : List Char} (p : Position) (hquote : c ≠ '"')
    (hcode : ∀ rest, c = '%' → cs = '{' :: rest → False)
    (hdots : ∀ rest, c = '.' → cs = '.' :: rest → False) :
    readKind (c :: cs) p
      = if startsNumber c cs then readNumber (c :: cs) p
        else if startsIdent c then
          (.ok (.ident (String.ofList (c :: cs.takeWhile continuesIdent))),
            ⟨cs.dropWhile continuesIdent, p.after (c :: cs.takeWhile continuesIdent)⟩)
        else if isPunct c then (.ok (.punct c), ⟨cs, p.next c⟩)
        else (.error (.unexpectedCharacter c), ⟨c :: cs, p⟩) := by
  rw [readKind.eq_def]
  split <;> simp_all

/-- Reads the next token, or the reason why there is none. At the end of the text that is the end of
    the file, again and again. Errors have the position at which the token or comment starts. -/
def next (l : Lexer) : Except ParseError Token × Lexer :=
  match skipGap .blank l.rest l.position with
  | (some start, l) => (.error (.lexical .unterminatedComment start), l)
  | (none, l) =>
    match readKind l.rest l.position with
    | (.ok kind, l') => (.ok ⟨kind, l.position⟩, l')
    | (.error cause, l') => (.error (.lexical cause l.position), l')

/-! ## Progress -/

theorem skipGap_rest_le (g : Gap) (cs : List Char) (p : Position) :
    (skipGap g cs p).2.rest.length ≤ cs.length := by
  fun_induction skipGap g cs p <;> simp_all <;> omega

theorem readString_rest_le (cs : List Char) (p : Position) :
    (readString cs p).2.rest.length ≤ cs.length := by
  fun_induction readString cs p <;> simp_all <;> omega

theorem readCode_rest_le (cs : List Char) (p : Position) :
    (readCode cs p).2.rest.length ≤ cs.length := by
  fun_induction readCode cs p <;> simp_all <;> omega

/-- A decimal text and what follows it are the characters that were there. -/
theorem decimalText_append (float : Bool) (cs : List Char) :
    (decimalText float cs).1 ++ (decimalText float cs).2.2 = cs := by
  fun_induction decimalText float cs <;> simp_all

theorem decimalText_rest_le (float : Bool) (cs : List Char) :
    (decimalText float cs).2.2.length ≤ cs.length := by
  have h := congrArg List.length (decimalText_append float cs)
  simp only [List.length_append] at h
  omega

/-- A digit or a first point belongs to the decimal text. -/
theorem decimalText_rest_lt {c : Char} (cs : List Char) (h : c.isDigit = true ∨ c = '.') :
    (decimalText false (c :: cs)).2.2.length < (c :: cs).length := by
  have hd := decimalText_rest_le false cs
  have hp := decimalText_rest_le true cs
  rw [decimalText.eq_def]
  rcases h with h | rfl
  · simp only [h, if_true]
    exact Nat.lt_succ_of_le hd
  · have hdot : '.'.isDigit = false := by decide
    simp only [hdot]
    exact Nat.lt_succ_of_le hp

theorem readUnsigned_rest_le (negative : Bool) (cs : List Char) (p : Position) :
    (readUnsigned negative cs p).2.rest.length ≤ cs.length := by
  have decimal : (readUnsigned.readDecimal negative cs p).2.rest.length ≤ cs.length :=
    decimalText_rest_le false cs
  unfold readUnsigned
  split
  · split
    · rename_i x rest _
      have h := (List.dropWhile_suffix Number.isHexDigit (l := rest)).length_le
      simp only [List.length_cons]
      omega
    · exact decimal
  · exact decimal

/-- A number behind its sign is at least one character long. -/
theorem readUnsigned_rest_lt (negative : Bool) {c : Char} (cs : List Char) (p : Position)
    (h : c.isDigit = true ∨ c = '.') :
    (readUnsigned negative (c :: cs) p).2.rest.length < (c :: cs).length := by
  have decimal : (readUnsigned.readDecimal negative (c :: cs) p).2.rest.length
      < (c :: cs).length := decimalText_rest_lt cs h
  unfold readUnsigned
  split
  · rename_i x rest heq
    split
    · have h := (List.dropWhile_suffix Number.isHexDigit (l := rest)).length_le
      rw [heq]
      simp only [List.length_cons]
      omega
    · exact decimal
  · exact decimal

/-- A number that starts as numbers do is at least one character long. -/
theorem readNumber_rest_lt {c : Char} {cs : List Char} (h : startsNumber c cs = true)
    (p : Position) : (readNumber (c :: cs) p).2.rest.length < (c :: cs).length := by
  unfold readNumber
  split
  · rename_i rest heq
    have hr := readUnsigned_rest_le true rest (p.next '-')
    rw [heq]
    simp only [List.length_cons]
    omega
  · rename_i hminus
    have hc : c.isDigit = true ∨ c = '.' := by
      simp only [startsNumber, Bool.or_eq_true, Bool.and_eq_true, beq_iff_eq] at h
      rcases h with (h | h) | h
      · exact .inl h
      · exact .inr h.1
      · exact absurd (by rw [h.1]) (hminus cs)
    exact readUnsigned_rest_lt false cs p hc

/-- Every token but the end of the file is at least one character long. -/
theorem readKind_rest_lt {cs : List Char} {p : Position} {kind : TokenKind} {l : Lexer}
    (h : readKind cs p = (.ok kind, l)) (hk : kind ≠ .eof) : l.rest.length < cs.length := by
  unfold readKind at h
  split at h
  · simp_all
  · rename_i rest
    have hr := readString_rest_le rest (p.next '"')
    split at h
    · rename_i heq
      obtain ⟨-, rfl⟩ := Prod.mk.inj h
      rw [heq] at hr
      simp only [List.length_cons] at hr ⊢
      omega
    · simp at h
  · rename_i rest
    have hr := readCode_rest_le rest (p.after ['%', '{'])
    split at h
    · rename_i heq
      obtain ⟨-, rfl⟩ := Prod.mk.inj h
      rw [heq] at hr
      simp only [List.length_cons] at hr ⊢
      omega
    · simp at h
  · obtain ⟨-, rfl⟩ := Prod.mk.inj h
    simp only [List.length_cons]
    omega
  · simp at h
  · rename_i c rest _ _ _ _
    split at h
    · rename_i hs
      have hr := readNumber_rest_lt hs p
      rw [h] at hr
      exact hr
    · split at h
      · obtain ⟨-, rfl⟩ := Prod.mk.inj h
        have hr := (List.dropWhile_suffix continuesIdent (l := rest)).length_le
        simp only [List.length_cons]
        omega
      · split at h
        · obtain ⟨-, rfl⟩ := Prod.mk.inj h
          simp
        · simp at h

/-- Reading a token that is not the end of the file leaves fewer characters. -/
theorem next_rest_lt {l l' : Lexer} {t : Token} (h : l.next = (.ok t, l'))
    (ht : t.kind ≠ .eof) : l'.rest.length < l.rest.length := by
  have hgap := skipGap_rest_le .blank l.rest l.position
  unfold next at h
  split at h
  · simp at h
  · rename_i m heq
    rw [heq] at hgap
    split at h
    · rename_i kind m' hkind
      obtain ⟨hk, rfl⟩ := Prod.mk.inj h
      obtain rfl := Except.ok.inj hk
      exact Nat.lt_of_lt_of_le (readKind_rest_lt hkind ht) hgap
    · simp at h

/-- All tokens up to the end of the file, which is the last; or the first error. -/
def tokens (l : Lexer) : Except ParseError (List Token) :=
  match _h : l.next with
  | (.error e, _) => .error e
  | (.ok t, l') =>
    if _ht : t.kind = .eof then .ok [t]
    else
      match tokens l' with
      | .error e => .error e
      | .ok ts => .ok (t :: ts)
termination_by l.rest.length
decreasing_by exact next_rest_lt _h _ht

theorem tokens_of_error {l l' : Lexer} {e : ParseError} (h : l.next = (.error e, l')) :
    l.tokens = .error e := by
  unfold tokens
  split
  · simp_all
  · simp_all

theorem tokens_of_eof {l l' : Lexer} {t : Token} (h : l.next = (.ok t, l'))
    (ht : t.kind = .eof) : l.tokens = .ok [t] := by
  unfold tokens
  split
  · simp_all
  · simp_all

theorem tokens_of_ok {l l' : Lexer} {t : Token} (h : l.next = (.ok t, l'))
    (ht : t.kind ≠ .eof) : l.tokens = l'.tokens.map (t :: ·) := by
  rw [tokens.eq_def]
  split
  · simp_all
  · rename_i t' m hnext
    obtain ⟨rfl, rfl⟩ : t = t' ∧ l' = m := by simpa [h] using hnext
    rw [dif_neg ht]
    cases l'.tokens <;> rfl

end Lexer

/-- The tokens of a text; the last, and only the last, is the end of the file. -/
def tokenize (source : String) : Except ParseError (List Token) :=
  (Lexer.ofString source).tokens

end IdlBind
