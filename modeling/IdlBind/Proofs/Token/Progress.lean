import IdlBind.Proofs.Token.Positions

set_option autoImplicit false

/-! # A lexer makes progress

A lexeme has characters unless it is the end of the file, or a character that starts no token and
is left where it is (`IsPiece.eq_nil_iff`). So every call reads something or gives one of these two,
and a lexer that has given one of them stands still (`next_of_isFinal`). A text is therefore read
with one call for each token and one more, and there are no more tokens than characters
(`exists_run`). -/

namespace IdlBind.Lexer

/-! ## Pieces without characters -/

theorem IsNumeral.ne_unexpected {negative : Bool} {text : List Char}
    {outcome : Except LexicalError TokenKind} (h : IsNumeral negative text outcome) (c : Char) :
    outcome ≠ .error (.unexpectedCharacter c) := by
  cases h with
  | hex =>
    unfold hexToken
    split <;> simp
  | decimal =>
    unfold decimalToken
    dsimp only
    split <;> split <;> simp

/-- The outcomes of a lexeme without characters. -/
def IsIdle (outcome : Except LexicalError TokenKind) : Prop :=
  outcome = .ok .eof ∨ ∃ c, outcome = .error (.unexpectedCharacter c)

theorem IsNumeral.not_isIdle {negative : Bool} {text : List Char}
    {outcome : Except LexicalError TokenKind} (h : IsNumeral negative text outcome) :
    ¬IsIdle outcome := by
  rintro (heof | ⟨c, hc⟩)
  · rcases h.kind_cases heof with ⟨value, hvalue⟩ | ⟨value, hvalue⟩
    · exact absurd hvalue (by simp)
    · exact absurd hvalue (by simp)
  · exact h.ne_unexpected c hc

theorem IsLexeme.eq_nil_iff {lexeme rest : List Char} {outcome : Except LexicalError TokenKind}
    (h : IsLexeme lexeme rest outcome) : lexeme = [] ↔ IsIdle outcome := by
  cases h with
  | eof => exact iff_of_true rfl (.inl rfl)
  | unexpected => exact iff_of_true rfl (.inr ⟨_, rfl⟩)
  | numeral hnumeral =>
    exact iff_of_false (by simp [hnumeral.text_ne_nil]) hnumeral.not_isIdle
  | _ => simp [IsIdle]

/-- The pieces without a lexeme are the end of the file and a character that starts no token. -/
theorem IsPiece.eq_nil_iff {skipped lexeme rest : List Char}
    {outcome : Except LexicalError TokenKind} (h : IsPiece skipped lexeme rest outcome) :
    lexeme = [] ↔ IsIdle outcome := by
  cases h with
  | lexeme _ _ hlexeme => exact hlexeme.eq_nil_iff
  | lineComment => exact iff_of_true rfl (.inl rfl)
  | blockComment => simp [IsIdle]

/-! ## Final results -/

/-- The results that a lexer gives again and again: the end of the file, and a character that starts
    no token. -/
def IsFinal : Except ParseError Token → Prop
  | .ok t => t.kind = .eof
  | .error (.lexical (.unexpectedCharacter _) _) => True
  | .error _ => False

theorem isFinal_placed_iff (outcome : Except LexicalError TokenKind) (p : Position) :
    IsFinal (placed outcome p) ↔ IsIdle outcome := by
  cases outcome with
  | ok kind => simp [placed, IsFinal, IsIdle]
  | error cause => cases cause <;> simp [placed, IsFinal, IsIdle]

/-- Behind blanks and comments there are no more of them. -/
theorem skipGap_skipGap {g : Gap} {cs : List Char} {p : Position} {l : Lexer}
    (h : skipGap g cs p = (none, l)) : skipGap .blank l.rest l.position = (none, l) := by
  fun_induction skipGap g cs p with
  | case1 p =>
    obtain rfl := (Prod.mk.inj h).2
    rfl
  | case2 cs p ih => exact ih h
  | case3 cs p ih => exact ih h
  | case4 c cs p hline hblock hblank ih => exact ih h
  | case5 c cs p hline hblock hblank =>
    obtain rfl := (Prod.mk.inj h).2
    exact (skipGap_blank_cons p (fun rest => hline rest) fun rest => hblock rest).trans
      (if_neg hblank)
  | case6 p =>
    obtain rfl := (Prod.mk.inj h).2
    rfl
  | case7 c cs p ih => exact ih h
  | case8 start p => exact absurd h (by simp)
  | case9 start cs p ih => exact ih h
  | case10 start c cs p hend ih => exact ih h

/-- Where there is no lexeme, the lexer stays in front of what is there. -/
theorem readKind_idle {cs : List Char} {p : Position} {outcome : Except LexicalError TokenKind}
    {l : Lexer} (h : readKind cs p = (outcome, l)) (hidle : IsIdle outcome) : l = ⟨cs, p⟩ := by
  obtain ⟨lexeme, rest, outcome', rfl, hlexeme, hread⟩ := exists_lexeme cs
  obtain ⟨rfl, rfl⟩ := Prod.mk.inj ((hread p).symm.trans h)
  obtain rfl := hlexeme.eq_nil_iff.2 hidle
  rfl

/-- A lexer that has given a final result gives it again and stays where it is. -/
theorem next_of_isFinal {l : Lexer} (h : IsFinal l.next.1) : l.next.2.next = l.next := by
  rcases hgap : skipGap .blank l.rest l.position with ⟨gap, m⟩
  cases gap with
  | some start =>
    have hnext : l.next = (.error (.lexical .unterminatedComment start), m) := by
      simp only [next, hgap]
    rw [hnext] at h
    exact absurd h id
  | none =>
    rcases hkind : readKind m.rest m.position with ⟨outcome, l'⟩
    -- `l` and `m` come to the same place behind blanks and comments, so they give the same
    have hnext : ∀ k : Lexer, skipGap .blank k.rest k.position = (none, m) →
        k.next = (placed outcome m.position, l') := by
      intro k hk
      simp only [next, hk, hkind]
      cases outcome <;> rfl
    rw [hnext l hgap] at h ⊢
    have hidle : IsIdle outcome := (isFinal_placed_iff outcome m.position).1 h
    obtain rfl : l' = m := readKind_idle hkind hidle
    exact hnext l' (skipGap_skipGap hgap)

/-! ## Calls -/

theorem afterCalls_add (l : Lexer) (m n : Nat) :
    l.afterCalls (m + n) = (l.afterCalls m).afterCalls n := by
  induction m generalizing l with
  | zero => rw [Nat.zero_add, afterCalls]
  | succ m ih =>
    rw [Nat.succ_add, afterCalls, afterCalls]
    exact ih l.next.2

theorem afterCalls_of_next_eq {l : Lexer} (h : l.next.2 = l) (n : Nat) : l.afterCalls n = l := by
  induction n with
  | zero => rfl
  | succ n ih => rw [afterCalls, h, ih]

/-- Behind a final result, all calls give that result and leave the lexer as it is. -/
theorem afterCalls_of_isFinal {l : Lexer} {m n : Nat} (h : IsFinal (l.afterCalls n).next.1)
    (hmn : n < m) :
    l.afterCalls m = (l.afterCalls n).next.2 ∧
      (l.afterCalls m).next.1 = (l.afterCalls n).next.1 := by
  have hnext := next_of_isFinal h
  obtain ⟨k, rfl⟩ : ∃ k, m = n + (k + 1) := ⟨m - n - 1, by omega⟩
  have hstays : l.afterCalls (n + (k + 1)) = (l.afterCalls n).next.2 := by
    rw [afterCalls_add, afterCalls]
    exact afterCalls_of_next_eq (congrArg Prod.snd hnext) k
  rw [hstays, hnext]
  exact ⟨rfl, rfl⟩

/-- A call reads something or gives a final result. -/
theorem HasRead.exists_progress {text consumed : List Char} {l : Lexer}
    (h : HasRead text consumed l) :
    ∃ more, HasRead text (consumed ++ more) l.next.2 ∧ (more ≠ [] ∨ IsFinal l.next.1) := by
  obtain ⟨skipped, lexeme, outcome, -, hpiece, hresult, hread⟩ := h.exists_next
  refine ⟨skipped ++ lexeme, by rwa [← List.append_assoc], ?_⟩
  rw [hresult, isFinal_placed_iff, ← hpiece.eq_nil_iff]
  by_cases hlexeme : lexeme = []
  · -- blanks and comments may have been read, but no more is needed
    exact .inr hlexeme
  · exact .inl (by simp [hlexeme])

/-! ## Whole texts -/

/-- Reading a whole text: calls that each give a token, and one that gives the end of the file or an
    error. There are no more tokens in front of the last result than there are characters. -/
structure IsRun (l : Lexer) (ts : List Token) (last : Except ParseError Token) : Prop where
  length_le : ts.length ≤ l.rest.length
  calls : ∀ i t, ts[i]? = some t → (l.afterCalls i).next.1 = .ok t
  not_eof : ∀ t ∈ ts, t.kind ≠ .eof
  last_call : (l.afterCalls ts.length).next.1 = last
  last_eof : ∀ t, last = .ok t → t.kind = .eof

/-- One call more in front of a run. -/
theorem IsRun.cons {l l' : Lexer} {t : Token} {ts : List Token} {last : Except ParseError Token}
    (hnext : l.next = (.ok t, l')) (ht : t.kind ≠ .eof) (h : IsRun l' ts last) :
    IsRun l (t :: ts) last := by
  have hl' : l.next.2 = l' := congrArg Prod.snd hnext
  refine ⟨?_, ?_, List.forall_mem_cons.2 ⟨ht, h.not_eof⟩, ?_, h.last_eof⟩
  · exact Nat.succ_le_of_lt (Nat.lt_of_le_of_lt h.length_le (next_rest_lt hnext ht))
  · intro i u hu
    cases i with
    | zero =>
      obtain rfl := Option.some.inj hu
      exact congrArg Prod.fst hnext
    | succ i =>
      rw [afterCalls, hl']
      exact h.calls i u hu
  · rw [List.length_cons, afterCalls, hl']
    exact h.last_call

/-- The tokens of a text are those of a run and the end of the file; its error is the last result of
    a run. -/
theorem exists_run (l : Lexer) :
    ∃ ts last, IsRun l ts last ∧ l.tokens = last.map fun eof => ts ++ [eof] := by
  fun_induction tokens l with
  | case1 l e l' hnext =>
    have hlast : l.next.1 = .error e := congrArg Prod.fst hnext
    exact ⟨[], .error e, ⟨Nat.zero_le _, by simp, by simp, hlast, by simp⟩, rfl⟩
  | case2 l t l' hnext heof =>
    have hlast : l.next.1 = .ok t := congrArg Prod.fst hnext
    refine ⟨[], .ok t, ⟨Nat.zero_le _, by simp, by simp, hlast, ?_⟩, rfl⟩
    intro u hu
    rwa [← Except.ok.inj hu]
  | case3 l t l' hnext heof e hmore ih =>
    obtain ⟨ts, last, hrun, htokens⟩ := ih
    refine ⟨t :: ts, last, hrun.cons hnext heof, ?_⟩
    cases last with
    | ok eof => exact absurd (hmore.symm.trans htokens) (by simp [Except.map])
    | error e' => exact hmore.symm.trans htokens
  | case4 l t l' hnext heof us hmore ih =>
    obtain ⟨ts, last, hrun, htokens⟩ := ih
    refine ⟨t :: ts, last, hrun.cons hnext heof, ?_⟩
    cases last with
    | ok eof =>
      obtain rfl := Except.ok.inj (hmore.symm.trans htokens)
      rfl
    | error e => exact absurd (hmore.symm.trans htokens) (by simp [Except.map])

end Lexer

open Lexer in
/-- A lexer makes progress. After any number of calls, errors included, the next one reads some
    characters or gives a final result: the end of the file, or a character that starts no token.
    All calls behind a final result give the same, position and all, and read nothing. So reading a
    text ends with the first call that gives no token, of which there are at most as many as there
    are characters; what has been read is these tokens and the end of the file, which is the last,
    or the error of that call. -/
theorem lexing_makes_progress (source : String) :
    (∀ n, ∃ consumed more,
      let l := (ofString source).afterCalls n
      HasRead source.toList consumed l ∧
      HasRead source.toList (consumed ++ more) l.next.2 ∧
      (more ≠ [] ∨ IsFinal l.next.1) ∧
      (IsFinal l.next.1 → ∀ m, n < m →
        (ofString source).afterCalls m = l.next.2 ∧
        ((ofString source).afterCalls m).next.1 = l.next.1)) ∧
    ∃ ts last, IsRun (ofString source) ts last ∧ ts.length ≤ source.length ∧
      tokenize source = last.map fun eof => ts ++ [eof] := by
  constructor
  · intro n
    obtain ⟨consumed, hread⟩ := (hasRead_ofString source).afterCalls n
    obtain ⟨more, hnext, hprogress⟩ := hread.exists_progress
    refine ⟨consumed, more, hread, hnext, hprogress, ?_⟩
    intro hfinal m hm
    exact afterCalls_of_isFinal hfinal hm
  · obtain ⟨ts, last, hrun, htokens⟩ := exists_run (ofString source)
    have hlength : ts.length ≤ source.length := by
      rw [← String.length_toList]
      exact hrun.length_le
    exact ⟨ts, last, hrun, hlength, htokens⟩

/-- Two dots are read although they are an error; a character that starts no token is not. -/
example : (List.range 4).map (fun n => ((Lexer.ofString "a..#b").afterCalls n).next.1)
    = [.ok ⟨.ident "a", ⟨1, 1⟩⟩, .error (.lexical .incompleteEllipsis ⟨1, 2⟩),
      .error (.lexical (.unexpectedCharacter '#') ⟨1, 4⟩),
      .error (.lexical (.unexpectedCharacter '#') ⟨1, 4⟩)] := by decide

end IdlBind
