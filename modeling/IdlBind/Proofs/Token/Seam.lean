import IdlBind.Proofs.Token.Relocation
import IdlBind.Token.Stream

set_option autoImplicit false

/-! # Two texts with a line feed between them

Behind a line feed, reading goes on as it would at the start of a text: no token, no number and no
line comment extends over it, and a text that can be read leaves no comment open. The tokens of two
texts with a line feed between them are therefore those of the first and those of the second, on the
lines below (`TokenStream.ofString_newline`). -/

namespace IdlBind

/-! ## Where a text ends -/

namespace Position

theorem line_after (p : Position) (text : List Char) :
    (p.after text).line = p.line + text.count '\n' := by
  induction text generalizing p with
  | nil => rfl
  | cons c cs ih =>
    rw [after_cons, ih, List.count_cons]
    by_cases hc : c = '\n'
    · simp only [next, hc, if_true, beq_self_eq_true]
      omega
    · simp only [next, hc, if_false, beq_iff_eq]
      omega

theorem next_newline (p : Position) : p.next '\n' = start.shift p.line := by
  simp only [next, if_true, shift, start, Position.mk.injEq, and_true]
  omega

end Position

namespace Lexer

/-- The position behind the last character. -/
def finish (l : Lexer) : Position := l.position.after l.rest

theorem finish_skipGap (gap : Gap) (cs : List Char) (p : Position) :
    (skipGap gap cs p).2.finish = p.after cs := by
  fun_induction skipGap gap cs p with
  | case1 => rfl
  | case2 p cs ih => exact ih
  | case3 p cs ih => exact ih
  | case4 c cs p hline hblock hc ih => exact ih
  | case5 => rfl
  | case6 => rfl
  | case7 c cs p ih => exact ih
  | case8 => rfl
  | case9 p start cs ih => exact ih
  | case10 start c cs p hend ih => exact ih

theorem finish_readString (cs : List Char) (p : Position) :
    (readString cs p).2.finish = p.after cs := by
  fun_induction readString cs p <;> simp_all [finish]

theorem finish_readCode (cs : List Char) (p : Position) :
    (readCode cs p).2.finish = p.after cs := by
  fun_induction readCode cs p <;> simp_all [finish]

theorem finish_readUnsigned (negative : Bool) (cs : List Char) (p : Position) :
    (readUnsigned negative cs p).2.finish = p.after cs := by
  have hdecimal : (readUnsigned.readDecimal negative cs p).2.finish = p.after cs := by
    show (p.after (decimalText false cs).1).after (decimalText false cs).2.2 = _
    rw [← Position.after_append, decimalText_append]
  unfold readUnsigned
  split
  · split
    · rename_i x rest _
      show ((p.after ['0', x]).after (rest.takeWhile Number.isHexDigit)).after
        (rest.dropWhile Number.isHexDigit) = _
      rw [← Position.after_append, List.takeWhile_append_dropWhile]
      rfl
    · exact hdecimal
  · exact hdecimal

theorem finish_readNumber (cs : List Char) (p : Position) :
    (readNumber cs p).2.finish = p.after cs := by
  unfold readNumber
  split
  · exact finish_readUnsigned _ _ _
  · exact finish_readUnsigned _ _ _

theorem finish_readKind (cs : List Char) (p : Position) :
    (readKind cs p).2.finish = p.after cs := by
  unfold readKind
  split
  · rfl
  · rename_i rest
    have hfinish := finish_readString rest (p.next '"')
    split
    all_goals
      rename_i heq
      rw [heq] at hfinish
      exact hfinish
  · rename_i rest
    have hfinish := finish_readCode rest (p.after ['%', '{'])
    split
    all_goals
      rename_i heq
      rw [heq] at hfinish
      exact hfinish
  · rfl
  · rfl
  · rename_i c rest _ _ _ _
    split
    · exact finish_readNumber _ _
    · split
      · show (p.after (c :: rest.takeWhile continuesIdent)).after
            (rest.dropWhile continuesIdent) = _
        rw [← Position.after_append, List.cons_append, List.takeWhile_append_dropWhile]
      · split <;> rfl

theorem finish_next (l : Lexer) : l.next.2.finish = l.finish := by
  have hgap : (skipGap .blank l.rest l.position).2.finish = l.finish := finish_skipGap _ _ _
  unfold next
  split
  · rename_i heq
    rw [heq] at hgap
    exact hgap
  · rename_i m heq
    rw [heq] at hgap
    have hkind : (readKind m.rest m.position).2.finish = m.finish := finish_readKind _ _
    split
    all_goals
      rename_i heq'
      rw [heq'] at hkind
      exact hkind.trans hgap

/-! ## Reading on behind a line feed -/

variable (ds : List Char)

/-- The lexer with a line feed and more characters behind those still to be read. -/
def extend (l : Lexer) : Lexer := ⟨l.rest ++ '\n' :: ds, l.position⟩

/-- A character in front of which there is no line feed was there already. -/
theorem head_of_append_newline {cs rest : List Char} {c : Char} (hc : c ≠ '\n')
    (h : cs ++ '\n' :: ds = c :: rest) : ∃ rest', cs = c :: rest' := by
  cases cs with
  | nil => exact absurd (List.cons.inj h).1.symm hc
  | cons d cs => exact ⟨cs, by rw [(List.cons.inj h).1]⟩

theorem skipGap_extend {gap : Gap} {cs : List Char} {p : Position} {l : Lexer}
    (h : skipGap gap cs p = (none, l)) :
    skipGap gap (cs ++ '\n' :: ds) p
      = if l.rest = [] then skipGap .blank ds (l.position.next '\n') else (none, l.extend ds) := by
  fun_induction skipGap gap cs p with
  | case1 p =>
    obtain rfl := (Prod.mk.inj h).2
    exact skipGap_blank_cons p (by simp) (by simp)
  | case2 cs p ih => exact ih h
  | case3 cs p ih => exact ih h
  | case4 c cs p hline hblock hc ih =>
    rw [List.cons_append, skipGap_blank_cons, if_pos hc]
    · exact ih h
    · rintro rest rfl -
      exact absurd hc (by decide)
    · rintro rest rfl -
      exact absurd hc (by decide)
  | case5 c cs p hline hblock hc =>
    -- a slash at the end stays a slash, as a line feed makes no comment of it
    obtain rfl := (Prod.mk.inj h).2
    rw [List.cons_append, skipGap_blank_cons, if_neg hc]
    · rfl
    · intro rest hslash hcs
      obtain ⟨rest', rfl⟩ := head_of_append_newline ds (by decide) hcs
      exact hline rest' hslash rfl
    · intro rest hslash hcs
      obtain ⟨rest', rfl⟩ := head_of_append_newline ds (by decide) hcs
      exact hblock rest' hslash rfl
  | case6 p =>
    obtain rfl := (Prod.mk.inj h).2
    rfl
  | case7 c cs p ih => exact ih h
  | case8 => exact absurd (Prod.mk.inj h).1 (by simp)
  | case9 cs p start ih => exact ih h
  | case10 start c cs p hend ih =>
    rw [List.cons_append, skipGap_blockComment_cons]
    · exact ih h
    · intro rest hstar hcs
      obtain ⟨rest', rfl⟩ := head_of_append_newline ds (by decide) hcs
      exact hend rest' hstar rfl

theorem readString_append (us : List Char) {cs text : List Char} {p : Position} {l : Lexer}
    (h : readString cs p = (some text, l)) :
    readString (cs ++ us) p = (some text, ⟨l.rest ++ us, l.position⟩) := by
  fun_induction readString cs p generalizing text with
  | case1 => exact absurd (Prod.mk.inj h).1 (by simp)
  | case2 cs p =>
    obtain ⟨rfl, rfl⟩ : [] = text ∧ _ = l := by simpa using h
    rfl
  | case3 => exact absurd (Prod.mk.inj h).1 (by simp)
  | case4 c cs p inner m hread ih =>
    obtain ⟨htext, rfl⟩ := Prod.mk.inj h
    obtain ⟨t, rfl, rfl⟩ := Option.map_eq_some_iff.1 htext
    simp only [List.cons_append, readString, ih hread, Option.map_some]
  | case5 c cs p hquote hlast hescape inner m hread ih =>
    obtain ⟨htext, rfl⟩ := Prod.mk.inj h
    obtain ⟨t, rfl, rfl⟩ := Option.map_eq_some_iff.1 htext
    -- a backslash escapes the next character, or is the last one and there is no closing quote
    have hbackslash : c ≠ '\\' := by
      rintro rfl
      cases cs with
      | nil => exact hlast rfl rfl
      | cons d cs => exact hescape d cs rfl rfl
    rw [List.cons_append, readString.eq_def]
    split <;> simp_all

theorem readCode_append (us : List Char) {cs code : List Char} {p : Position} {l : Lexer}
    (h : readCode cs p = (some code, l)) :
    readCode (cs ++ us) p = (some code, ⟨l.rest ++ us, l.position⟩) := by
  fun_induction readCode cs p generalizing code with
  | case1 => exact absurd (Prod.mk.inj h).1 (by simp)
  | case2 cs p =>
    obtain ⟨rfl, rfl⟩ : [] = code ∧ _ = l := by simpa using h
    rfl
  | case3 c cs p hend inner m hread ih =>
    obtain ⟨hcode, rfl⟩ := Prod.mk.inj h
    obtain ⟨t, rfl, rfl⟩ := Option.map_eq_some_iff.1 hcode
    -- the code goes on, so that a percent sign at the end of it is not the last character
    have hlonger : ∀ rest, c = '%' → cs ++ us = '}' :: rest → False := by
      intro rest hpercent hcs
      cases cs with
      | nil => exact absurd (Prod.mk.inj hread).1 (by simp)
      | cons d cs =>
        obtain ⟨rfl, -⟩ := List.cons.inj hcs
        exact hend cs hpercent rfl
    rw [List.cons_append, readCode.eq_def]
    split <;> simp_all

theorem decimalText_extend (float : Bool) (cs : List Char) :
    decimalText float (cs ++ '\n' :: ds)
      = ((decimalText float cs).1, (decimalText float cs).2.1,
          (decimalText float cs).2.2 ++ '\n' :: ds) := by
  have hstop : ∀ float, decimalText float ('\n' :: ds) = ([], float, '\n' :: ds) := by
    intro float
    rw [decimalText.eq_def]
    rfl
  fun_induction decimalText float cs with
  | case1 => exact hstop _
  | case2 float c cs hc text kind rest hread ih =>
    rw [hread] at ih
    rw [List.cons_append, decimalText.eq_def]
    simp only [hc, if_true, ih]
  | case3 float c cs hc hpoint text kind rest hread ih =>
    rw [hread] at ih
    rw [List.cons_append, decimalText.eq_def]
    simp only [hc, hpoint, if_true, ih, Bool.false_eq_true, if_false]
  | case4 float c hc hpoint he =>
    -- an exponent mark at the end: the line feed behind it is no sign
    have hsign : (decide ('\n' = '+') || decide ('\n' = '-')) = false := by decide
    rw [List.cons_append, decimalText.eq_def]
    simp only [hc, hpoint, he, if_true, List.nil_append, hsign, hstop, Bool.false_eq_true, if_false]
  | case5 float c hc hpoint he d cs hsign text kind rest hread ih =>
    rw [hread] at ih
    rw [List.cons_append, List.cons_append, decimalText.eq_def]
    simp only [hc, hpoint, he, hsign, if_true, ih, Bool.false_eq_true, if_false]
  | case6 float c hc hpoint he d cs hsign text kind rest hread ih =>
    rw [hread, List.cons_append] at ih
    rw [List.cons_append, List.cons_append, decimalText.eq_def]
    simp only [hc, hpoint, he, hsign, if_true, ih, Bool.false_eq_true, if_false]
  | case7 float c cs hc hpoint he =>
    rw [List.cons_append, decimalText.eq_def]
    simp only [hc, hpoint, he, Bool.false_eq_true, if_false]

theorem takeWhile_extend {p : Char → Bool} (hp : p '\n' = false) (cs : List Char) :
    (cs ++ '\n' :: ds).takeWhile p = cs.takeWhile p := by
  induction cs with
  | nil => simp [hp]
  | cons c cs ih => simp only [List.cons_append, List.takeWhile_cons, ih]

theorem dropWhile_extend {p : Char → Bool} (hp : p '\n' = false) (cs : List Char) :
    (cs ++ '\n' :: ds).dropWhile p = cs.dropWhile p ++ '\n' :: ds := by
  induction cs with
  | nil => simp [hp]
  | cons c cs ih =>
    simp only [List.cons_append, List.dropWhile_cons, ih]
    split <;> rfl

theorem readUnsigned_zero (negative : Bool) (x : Char) (cs : List Char) (p : Position) :
    readUnsigned negative ('0' :: x :: cs) p
      = if x = 'x' || x = 'X' then
          (hexToken negative (cs.takeWhile Number.isHexDigit),
            ⟨cs.dropWhile Number.isHexDigit,
              (p.after ['0', x]).after (cs.takeWhile Number.isHexDigit)⟩)
        else readUnsigned.readDecimal negative ('0' :: x :: cs) p := rfl

theorem readUnsigned_of_ne (negative : Bool) {c : Char} (hc : c ≠ '0') (cs : List Char)
    (p : Position) :
    readUnsigned negative (c :: cs) p = readUnsigned.readDecimal negative (c :: cs) p := by
  unfold readUnsigned
  split
  · rename_i heq
    exact absurd (List.cons.inj heq).1 hc
  · rfl

theorem readUnsigned_extend (negative : Bool) (cs : List Char) (p : Position) :
    readUnsigned negative (cs ++ '\n' :: ds) p
      = ((readUnsigned negative cs p).1, (readUnsigned negative cs p).2.extend ds) := by
  have hdecimal : readUnsigned.readDecimal negative (cs ++ '\n' :: ds) p
      = ((readUnsigned.readDecimal negative cs p).1,
          (readUnsigned.readDecimal negative cs p).2.extend ds) := by
    simp only [readUnsigned.readDecimal, decimalText_extend, extend]
  rcases cs with _ | ⟨c, cs⟩
  · exact hdecimal
  · by_cases hc : c = '0'
    · subst hc
      rcases cs with _ | ⟨x, cs⟩
      · exact hdecimal
      · rw [List.cons_append, List.cons_append, readUnsigned_zero, readUnsigned_zero]
        split
        · rw [takeWhile_extend ds (by decide), dropWhile_extend ds (by decide)]
          rfl
        · exact hdecimal
    · rw [List.cons_append, readUnsigned_of_ne negative hc, readUnsigned_of_ne negative hc]
      exact hdecimal

theorem readNumber_of_ne {c : Char} (hc : c ≠ '-') (cs : List Char) (p : Position) :
    readNumber (c :: cs) p = readUnsigned false (c :: cs) p := by
  unfold readNumber
  split
  · rename_i heq
    exact absurd (List.cons.inj heq).1 hc
  · rfl

theorem readNumber_extend (cs : List Char) (p : Position) :
    readNumber (cs ++ '\n' :: ds) p
      = ((readNumber cs p).1, (readNumber cs p).2.extend ds) := by
  rcases cs with _ | ⟨c, cs⟩
  · exact readUnsigned_extend ds false [] p
  · by_cases hc : c = '-'
    · subst hc
      exact readUnsigned_extend ds true cs _
    · rw [List.cons_append, readNumber_of_ne hc, readNumber_of_ne hc]
      exact readUnsigned_extend ds false (c :: cs) p

theorem startsNumber_extend (c : Char) (cs : List Char) :
    startsNumber c (cs ++ '\n' :: ds) = startsNumber c cs := by
  cases cs with
  | nil => simp [startsNumber]
  | cons d cs => rfl

/-- A decimal text denotes an integer or a floating-point number. -/
theorem decimalToken_cases {negative float : Bool} {digits : List Char} {kind : TokenKind}
    (h : decimalToken negative digits float = .ok kind) :
    (∃ value, kind = .integer value) ∨ ∃ value, kind = .float value := by
  unfold decimalToken at h
  dsimp only at h
  split at h
  · split at h
    · exact .inr ⟨_, (Except.ok.inj h).symm⟩
    · exact absurd h (by simp)
  · split at h
    · exact .inl ⟨_, (Except.ok.inj h).symm⟩
    · exact absurd h (by simp)

theorem hexToken_cases {negative : Bool} {digits : List Char} {kind : TokenKind}
    (h : hexToken negative digits = .ok kind) : ∃ value, kind = .integer value := by
  unfold hexToken at h
  split at h
  · exact ⟨_, (Except.ok.inj h).symm⟩
  · exact absurd h (by simp)

/-- What is read as a number is one. -/
theorem readNumber_cases {cs : List Char} {p : Position} {kind : TokenKind}
    (h : (readNumber cs p).1 = .ok kind) :
    (∃ value, kind = .integer value) ∨ ∃ value, kind = .float value := by
  have hunsigned : ∀ {negative cs p}, (readUnsigned negative cs p).1 = .ok kind →
      (∃ value, kind = .integer value) ∨ ∃ value, kind = .float value := by
    intro negative cs p h
    unfold readUnsigned at h
    split at h
    · split at h
      · exact .inl (hexToken_cases h)
      · exact decimalToken_cases h
    · exact decimalToken_cases h
  unfold readNumber at h
  split at h
  · exact hunsigned h
  · exact hunsigned h

theorem readNumber_ne_eof (cs : List Char) (p : Position) :
    (readNumber cs p).1 ≠ .ok .eof := by
  intro h
  rcases readNumber_cases h with ⟨value, hvalue⟩ | ⟨value, hvalue⟩
  · exact absurd hvalue (by simp)
  · exact absurd hvalue (by simp)

/-- Only behind the last character is the end of the file read. -/
theorem eq_nil_of_readKind_eof {cs : List Char} {p : Position} {l : Lexer}
    (h : readKind cs p = (.ok .eof, l)) : cs = [] := by
  rw [readKind.eq_def] at h
  split at h
  · rfl
  · split at h <;> simp at h
  · split at h <;> simp at h
  · simp at h
  · simp at h
  · split at h
    · exact absurd (congrArg Prod.fst h) (readNumber_ne_eof _ _)
    · split at h
      · simp at h
      · split at h <;> simp at h

theorem readKind_extend {cs : List Char} {p : Position} {kind : TokenKind} {l : Lexer}
    (h : readKind cs p = (.ok kind, l)) (hcs : cs ≠ []) :
    readKind (cs ++ '\n' :: ds) p = (.ok kind, l.extend ds) := by
  rw [readKind.eq_def] at h
  split at h
  · exact absurd rfl hcs
  · rename_i rest
    split at h
    · rename_i text m hread
      obtain ⟨rfl, rfl⟩ : TokenKind.string (String.ofList text) = kind ∧ m = l := by simpa using h
      have hmore := readString_append ('\n' :: ds) hread
      rw [List.cons_append, readKind, hmore]
      rfl
    · exact absurd h (by simp)
  · rename_i rest
    split at h
    · rename_i code m hread
      obtain ⟨rfl, rfl⟩ : TokenKind.codeBlock (String.ofList code) = kind ∧ m = l := by
        simpa using h
      have hmore := readCode_append ('\n' :: ds) hread
      rw [List.cons_append, List.cons_append, readKind, hmore]
      rfl
    · exact absurd h (by simp)
  · obtain ⟨rfl, rfl⟩ : TokenKind.ellipsis = kind ∧ _ = l := by simpa using h
    rfl
  · exact absurd h (by simp)
  · rename_i c rest hquote hcode hellipsis hdots
    rw [List.cons_append, readKind_cons p hquote, startsNumber_extend]
    · split at h
      · rename_i hnumber
        rw [if_pos hnumber, ← List.cons_append, readNumber_extend, h]
      · rename_i hnumber
        rw [if_neg hnumber]
        split at h
        · rename_i hident
          rw [if_pos hident, takeWhile_extend ds (by decide), dropWhile_extend ds (by decide)]
          obtain ⟨hkind, rfl⟩ := Prod.mk.inj h
          rw [← hkind]
          rfl
        · rename_i hident
          rw [if_neg hident]
          split at h
          · rename_i hpunct
            rw [if_pos hpunct]
            obtain ⟨hkind, rfl⟩ := Prod.mk.inj h
            rw [← hkind]
            rfl
          · exact absurd h (by simp)
    · intro rest' hpercent hrest
      obtain ⟨rest'', rfl⟩ := head_of_append_newline ds (by decide) hrest
      exact hcode rest'' hpercent rfl
    · intro rest' hdot hrest
      obtain ⟨rest'', rfl⟩ := head_of_append_newline ds (by decide) hrest
      exact hdots rest'' hdot rfl

theorem next_eq_ok_iff {l l' : Lexer} {t : Token} :
    l.next = (.ok t, l') ↔ ∃ m, skipGap .blank l.rest l.position = (none, m) ∧
      readKind m.rest m.position = (.ok t.kind, l') ∧ m.position = t.position := by
  constructor
  · intro h
    unfold next at h
    split at h
    · exact absurd h (by simp)
    · rename_i m hgap
      split at h
      · rename_i kind m' hkind
        obtain ⟨rfl, rfl⟩ : (⟨kind, m.position⟩ : Token) = t ∧ m' = l' := by simpa using h
        exact ⟨m, hgap, hkind, rfl⟩
      · exact absurd h (by simp)
  · rintro ⟨m, hgap, hkind, hposition⟩
    unfold next
    rw [hgap]
    dsimp only
    rw [hkind, hposition]

/-- A token that is not the end of the file is read as if nothing stood behind the text. -/
theorem next_extend {l l' : Lexer} {t : Token} (h : l.next = (.ok t, l')) (ht : t.kind ≠ .eof) :
    (l.extend ds).next = (.ok t, l'.extend ds) := by
  obtain ⟨m, hgap, hkind, hposition⟩ := next_eq_ok_iff.1 h
  have hm : m.rest ≠ [] := by
    intro hm
    rw [hm] at hkind
    exact ht (Except.ok.inj (Prod.mk.inj hkind).1).symm
  have hgap' := skipGap_extend ds hgap
  rw [if_neg hm] at hgap'
  exact next_eq_ok_iff.2 ⟨m.extend ds, hgap', readKind_extend ds hkind hm, hposition⟩

/-- Where the end of the file is read, reading goes on behind the line feed. -/
theorem next_extend_of_eof {l l' : Lexer} {t : Token} (h : l.next = (.ok t, l'))
    (ht : t.kind = .eof) :
    t.position = l.finish ∧ (l.extend ds).next = (Lexer.mk ds (l.finish.next '\n')).next := by
  obtain ⟨m, hgap, hkind, hposition⟩ := next_eq_ok_iff.1 h
  rw [ht] at hkind
  have hm := eq_nil_of_readKind_eof hkind
  have hfinish : m.position = l.finish := by
    have hgapFinish := finish_skipGap .blank l.rest l.position
    rw [hgap] at hgapFinish
    rw [← show m.finish = l.finish from hgapFinish, finish, hm, Position.after_nil]
  have hgap' := skipGap_extend ds hgap
  rw [if_pos hm, hfinish] at hgap'
  refine ⟨hposition.symm.trans hfinish, ?_⟩
  unfold next
  dsimp only [extend]
  rw [hgap']

theorem tokens_congr {l m : Lexer} (h : l.next = m.next) : l.tokens = m.tokens := by
  rcases hm : m.next with ⟨e | t, m'⟩
  · rw [tokens_of_error hm, tokens_of_error (h.trans hm)]
  · by_cases ht : t.kind = .eof
    · rw [tokens_of_eof hm ht, tokens_of_eof (h.trans hm) ht]
    · rw [tokens_of_ok hm ht, tokens_of_ok (h.trans hm) ht]

/-- The tokens of a text with a line feed and another text behind it: its own up to the end of the
    file, and then those of the other text. -/
theorem tokens_extend {l : Lexer} {ts : List Token} (h : l.tokens = .ok ts) :
    ∃ body, ts = body ++ [⟨.eof, l.finish⟩] ∧
      (l.extend ds).tokens
        = (Lexer.mk ds (l.finish.next '\n')).tokens.map (body ++ ·) := by
  fun_induction tokens l generalizing ts with
  | case1 l e l' hnext => exact absurd h (by simp)
  | case2 l t l' hnext heof =>
    obtain rfl := Except.ok.inj h
    obtain ⟨hposition, hmore⟩ := next_extend_of_eof ds hnext heof
    refine ⟨[], by rw [← hposition, ← heof]; rfl, ?_⟩
    rw [tokens_congr hmore]
    cases (Lexer.mk ds (l.finish.next '\n')).tokens <;> rfl
  | case3 l t l' hnext heof e htokens ih => exact absurd h (by simp)
  | case4 l t l' hnext heof ts htokens ih =>
    obtain rfl := Except.ok.inj h
    obtain ⟨body, rfl, hmore⟩ := ih htokens
    have hfinish : l'.finish = l.finish := by
      have := finish_next l
      rwa [hnext] at this
    refine ⟨t :: body, by rw [← hfinish]; rfl, ?_⟩
    rw [tokens_of_ok (next_extend ds hnext heof) heof, hmore, hfinish]
    cases (Lexer.mk ds (l.finish.next '\n')).tokens <;> rfl

end Lexer

/-! ## Streams of tokens -/

/-- How many lines a text takes with the line feed behind it. -/
def lineCount (source : String) : Nat := source.toList.count '\n' + 1

theorem TokenStream.ofTokens_append (body : List Token) (t : Token) :
    ofTokens (body ++ [t]) = ⟨body, t.position⟩ := by
  simp [ofTokens]

theorem TokenStream.tokenize_eq {source : String} {s : TokenStream} (h : ofString source = .ok s) :
    tokenize source = .ok (s.ahead ++ [⟨.eof, s.finish⟩]) := by
  unfold ofString at h
  cases htokens : tokenize source with
  | error e =>
    rw [htokens] at h
    exact absurd h (by simp [Except.map])
  | ok ts =>
    obtain ⟨body, rfl, -⟩ := Lexer.tokens_extend [] htokens
    rw [htokens] at h
    obtain rfl := Except.ok.inj h
    rw [ofTokens_append]

/-- The stream of two texts with a line feed between them: the tokens of the first, and those of the
    second on the lines below. -/
theorem TokenStream.ofString_newline {a b : String} {s t : TokenStream}
    (ha : ofString a = .ok s) (hb : ofString b = .ok t) :
    ofString (a ++ "\n" ++ b)
      = .ok ⟨s.ahead ++ t.ahead.map (·.relocate (·.shift (lineCount a))),
          t.finish.shift (lineCount a)⟩ := by
  have hbtokens := tokenize_eq hb
  obtain ⟨body, hbody, hmore⟩ := Lexer.tokens_extend b.toList (tokenize_eq ha)
  obtain ⟨rfl, -⟩ := List.append_inj' hbody rfl
  -- the second text starts at the beginning of a line, which is this one
  have hline : (Lexer.ofString a).finish.line = lineCount a := by
    show (Position.start.after a.toList).line = _
    rw [Position.line_after, Nat.add_comm]
    rfl
  have hjoined : tokenize (a ++ "\n" ++ b)
      = ((Lexer.ofString b).shift (lineCount a)).tokens.map (s.ahead ++ ·) := by
    rw [Position.next_newline, hline] at hmore
    have htext : Lexer.ofString (a ++ "\n" ++ b) = (Lexer.ofString a).extend b.toList := by
      simp [Lexer.extend, Lexer.ofString]
    rw [tokenize, htext, hmore]
    rfl
  unfold ofString
  rw [hjoined, Lexer.tokens_shift, show (Lexer.ofString b).tokens = _ from hbtokens]
  show Except.ok (ofTokens (s.ahead ++ (t.ahead ++ [_]).map _)) = _
  rw [List.map_append, List.map_singleton, ← List.append_assoc, ofTokens_append]
  rfl

end IdlBind
