import IdlBind.Proofs.Token.Seam

set_option autoImplicit false

/-! # Printing tokens

Tokens with a blank behind each are read back (`tokenize_textOf`). Strings, numbers and code blocks
are left out. -/

namespace IdlBind

/-! ## Texts of tokens -/

/-- Is this an identifier as a token? -/
def isIdentifier (name : String) : Bool :=
  match name.toList with
  | [] => false
  | c :: cs => Lexer.startsIdent c && cs.all Lexer.continuesIdent

/-- The characters of a token that is an identifier, an ellipsis or a character of its own. -/
def TokenKind.text : TokenKind → List Char
  | .ident name => name.toList
  | .ellipsis => ['.', '.', '.']
  | .punct c => [c]
  | _ => []

/-- Is this a token that can be printed? -/
def TokenKind.isPrintable : TokenKind → Bool
  | .ident name => isIdentifier name
  | .ellipsis => true
  | .punct c => Lexer.isPunct c
  | _ => false

/-- The characters of tokens, with a blank behind each. -/
def textChars (kinds : List TokenKind) : List Char := kinds.flatMap fun kind => kind.text ++ [' ']

/-- The text of tokens, with a blank behind each. -/
def textOf (kinds : List TokenKind) : String := String.ofList (textChars kinds)

namespace Lexer

/-! ## Reading them back -/

theorem isIdentifier_cons {name : String} (h : isIdentifier name = true) :
    ∃ c cs, name.toList = c :: cs ∧ startsIdent c = true ∧ cs.all continuesIdent = true := by
  unfold isIdentifier at h
  split at h
  · exact absurd h (by simp)
  · rename_i c cs hname
    exact ⟨c, cs, hname, by simpa using h⟩

/-- The characters with which an identifier starts lie between `A` and `z`. -/
theorem toNat_of_startsIdent {c : Char} (h : startsIdent c = true) :
    65 ≤ c.toNat ∧ c.toNat ≤ 122 := by
  have hcases : (decide ('A'.val ≤ c.val ∧ c.val ≤ 'Z'.val) ||
      decide ('a'.val ≤ c.val) && decide (c.val ≤ 'z'.val) || c == '_') = true := h
  simp only [Bool.or_eq_true, Bool.and_eq_true, decide_eq_true_eq, beq_iff_eq] at hcases
  rcases hcases with (hupper | hlower) | rfl
  · have hrange : 65 ≤ c.toNat ∧ c.toNat ≤ 90 := hupper
    omega
  · have hrange : 97 ≤ c.toNat ∧ c.toNat ≤ 122 := hlower
    omega
  · decide

theorem isBlank_of_startsIdent {c : Char} (h : startsIdent c = true) : Text.isBlank c = false := by
  have hrange := toNat_of_startsIdent h
  have hblank : c ≠ ' ' := by
    rintro rfl
    exact absurd h (by decide)
  simp only [Text.isBlank, Bool.or_eq_false_iff, Bool.and_eq_false_iff, decide_eq_false_iff_not,
    beq_eq_false_iff_ne, ne_eq, hblank, not_false_eq_true, and_true]
  omega

theorem isDigit_of_startsIdent {c : Char} (h : startsIdent c = true) : c.isDigit = false := by
  have hrange := toNat_of_startsIdent h
  simp only [Char.isDigit, Bool.and_eq_false_iff, decide_eq_false_iff_not, ge_iff_le,
    UInt32.le_iff_toNat_le]
  right
  show ¬c.toNat ≤ 57
  omega

theorem isPunct_cases {c : Char} (h : isPunct c = true) :
    Text.isBlank c = false ∧ startsIdent c = false ∧ c.isDigit = false ∧ c ≠ '/' ∧ c ≠ '"' ∧
      c ≠ '%' := by
  have hall : "{}()[];:,=<>?*-&|.".toList.all (fun c => !Text.isBlank c && !startsIdent c &&
      !c.isDigit && c != '/' && c != '"' && c != '%') = true := by decide
  simpa [and_assoc] using List.all_eq_true.1 hall c (List.contains_iff_mem.1 h)

/-- Nothing follows, or a blank does: a token in front of it goes no further. -/
def EndsToken (rest : List Char) : Prop := ∀ c ∈ rest.head?, c = ' '

theorem endsToken_nil : EndsToken [] := by simp [EndsToken]

theorem endsToken_blank (cs : List Char) : EndsToken (' ' :: cs) := by simp [EndsToken]

theorem EndsToken.ne {rest : List Char} (h : EndsToken rest) {c : Char} (hc : c ≠ ' ')
    (cs : List Char) : rest ≠ c :: cs := by
  rintro rfl
  exact hc (h c rfl)

/-- A run of characters of a class that has no blank in it ends with the token. -/
theorem takeWhile_of_endsToken {P : Char → Bool} (hP : P ' ' = false) {cs rest : List Char}
    (hcs : ∀ c ∈ cs, P c = true) (hrest : EndsToken rest) :
    (cs ++ rest).takeWhile P = cs ∧ (cs ++ rest).dropWhile P = rest := by
  rw [List.takeWhile_append_of_pos hcs, List.dropWhile_append_of_pos hcs]
  cases rest with
  | nil => simp
  | cons c rest =>
    obtain rfl := hrest c rfl
    simp [hP]

theorem startsNumber_of_endsToken (c : Char) {rest : List Char} (h : EndsToken rest) :
    startsNumber c rest = c.isDigit := by
  cases rest with
  | nil => simp [startsNumber]
  | cons d rest =>
    obtain rfl := h d rfl
    have hpoint : (c == '.' && ' '.isDigit) = false := Bool.and_false _
    have hminus : (c == '-' && (' '.isDigit || ' ' == '.')) = false := Bool.and_false _
    rw [startsNumber, List.head?_cons, Option.any_some, Option.any_some, hpoint, hminus,
      Bool.or_false, Bool.or_false]

theorem skipGap_of_not_blank {c : Char} (hblank : Text.isBlank c = false) (hslash : c ≠ '/')
    (cs : List Char) (p : Position) :
    skipGap .blank (c :: cs) p = (none, ⟨c :: cs, p⟩) := by
  rw [skipGap_blank_cons p (fun _ h _ => hslash h) (fun _ h _ => hslash h),
    if_neg (by simp [hblank])]

/-- A token that can be printed starts where its text does. -/
theorem skipGap_text {kind : TokenKind} (h : kind.isPrintable = true) (cs : List Char)
    (p : Position) :
    skipGap .blank (kind.text ++ ' ' :: cs) p = (none, ⟨kind.text ++ ' ' :: cs, p⟩) := by
  cases kind with
  | ident name =>
    obtain ⟨c, rest, hname, hstart, -⟩ := isIdentifier_cons h
    have hslash : c ≠ '/' := by
      rintro rfl
      exact absurd hstart (by decide)
    rw [TokenKind.text, hname]
    exact skipGap_of_not_blank (isBlank_of_startsIdent hstart) hslash _ p
  | ellipsis => exact skipGap_of_not_blank (by decide) (by decide) _ p
  | punct c =>
    obtain ⟨hblank, -, -, hslash, -⟩ := isPunct_cases h
    exact skipGap_of_not_blank hblank hslash _ p
  | _ => exact absurd h (by simp [TokenKind.isPrintable])

theorem readKind_ident {c : Char} {cs rest : List Char} (hstart : startsIdent c = true)
    (hcs : ∀ d ∈ cs, continuesIdent d = true) (hrest : EndsToken rest) (p : Position) :
    readKind (c :: (cs ++ rest)) p
      = (.ok (.ident (String.ofList (c :: cs))), ⟨rest, p.after (c :: cs)⟩) := by
  have hother : ∀ d, startsIdent d = false → c ≠ d := by
    rintro d hd rfl
    rw [hd] at hstart
    exact absurd hstart (by simp)
  have hnumber : startsNumber c (cs ++ rest) = false := by
    simp only [startsNumber, isDigit_of_startsIdent hstart, Bool.or_eq_false_iff,
      Bool.and_eq_false_iff, beq_eq_false_iff_ne, ne_eq]
    exact ⟨⟨trivial, .inl (hother '.' (by decide))⟩, .inl (hother '-' (by decide))⟩
  obtain ⟨htake, hdrop⟩ := takeWhile_of_endsToken (by decide) hcs hrest
  rw [readKind_cons p (hother '"' (by decide)) (fun _ h _ => hother '%' (by decide) h)
      (fun _ h _ => hother '.' (by decide) h),
    if_neg (by simp [hnumber]), if_pos hstart, htake, hdrop]

theorem readKind_punct {c : Char} {rest : List Char} (h : isPunct c = true)
    (hrest : EndsToken rest) (p : Position) :
    readKind (c :: rest) p = (.ok (.punct c), ⟨rest, p.next c⟩) := by
  obtain ⟨-, hident, hdigit, -, hquote, hpercent⟩ := isPunct_cases h
  rw [readKind_cons p hquote (fun _ h _ => hpercent h)
      (fun rest' _ h => hrest.ne (by decide) rest' h),
    if_neg (by simp [startsNumber_of_endsToken c hrest, hdigit]), if_neg (by simp [hident]),
    if_pos h]

theorem readKind_text {kind : TokenKind} (h : kind.isPrintable = true) (cs : List Char)
    (p : Position) :
    readKind (kind.text ++ ' ' :: cs) p = (.ok kind, ⟨' ' :: cs, p.after kind.text⟩) := by
  cases kind with
  | ident name =>
    obtain ⟨c, rest, hname, hstart, hrest⟩ := isIdentifier_cons h
    rw [TokenKind.text, hname, List.cons_append,
      readKind_ident hstart (List.all_eq_true.1 hrest) (endsToken_blank cs), ← hname,
      String.ofList_toList]
  | ellipsis => rfl
  | punct c => exact readKind_punct h (endsToken_blank cs) p
  | _ => exact absurd h (by simp [TokenKind.isPrintable])

theorem next_blank (cs : List Char) (p : Position) :
    (Lexer.mk (' ' :: cs) p).next = (Lexer.mk cs (p.next ' ')).next := by
  have hgap : skipGap .blank (' ' :: cs) p = skipGap .blank cs (p.next ' ') := by
    rw [skipGap_blank_cons p (by simp) (by simp), if_pos (by decide)]
  unfold next
  dsimp only
  rw [hgap]

/-- Printed tokens are read back. -/
theorem tokens_textChars {kinds : List TokenKind} (h : kinds.all TokenKind.isPrintable = true)
    (p : Position) :
    ∃ ts finish, (Lexer.mk (textChars kinds) p).tokens = .ok (ts ++ [⟨.eof, finish⟩]) ∧
      ts.map (·.kind) = kinds := by
  induction kinds generalizing p with
  | nil => exact ⟨[], p, tokens_of_eof rfl rfl, rfl⟩
  | cons kind kinds ih =>
    simp only [List.all_cons, Bool.and_eq_true] at h
    obtain ⟨hkind, hrest⟩ := h
    obtain ⟨ts, finish, htokens, hkinds⟩ := ih hrest ((p.after kind.text).next ' ')
    have hnext : (Lexer.mk (textChars (kind :: kinds)) p).next
        = (.ok ⟨kind, p⟩, ⟨' ' :: textChars kinds, p.after kind.text⟩) := by
      have htext : textChars (kind :: kinds) = kind.text ++ ' ' :: textChars kinds := by
        simp [textChars]
      rw [htext, next_eq_ok_iff]
      exact ⟨_, skipGap_text hkind _ _, readKind_text hkind _ _, rfl⟩
    have hother : kind ≠ .eof := by
      rintro rfl
      exact absurd hkind (by decide)
    refine ⟨⟨kind, p⟩ :: ts, finish, ?_, by rw [List.map_cons, hkinds]⟩
    rw [tokens_of_ok hnext hother, tokens_congr (next_blank _ _), htokens]
    rfl

end Lexer

theorem tokenize_textOf {kinds : List TokenKind} (h : kinds.all TokenKind.isPrintable = true) :
    ∃ ts finish, tokenize (textOf kinds) = .ok (ts ++ [⟨.eof, finish⟩]) ∧
      ts.map (·.kind) = kinds := by
  rw [tokenize, Lexer.ofString, textOf, String.toList_ofList]
  exact Lexer.tokens_textChars h .start

end IdlBind
