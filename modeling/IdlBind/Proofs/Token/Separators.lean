import IdlBind.Proofs.Token.Lexemes

set_option autoImplicit false

/-! # Separators

A separator is a line feed with blanks and complete comments behind it. Between two texts, the first
of which can be read, it changes nothing: the tokens are those of the first and those of the second,
and the second is to blame for an error as it would be alone (`separator_is_transparent`). The line
feed ends what the first text leaves open, a line comment or a number that could go on. -/

namespace IdlBind

/-- A line feed, and blanks and complete comments behind it. -/
def IsSeparator (text : List Char) : Prop :=
  ∃ filler, text = '\n' :: filler ∧ Lexer.IsFiller filler

namespace Lexer

/-- Two readings of a text at different places: the same kinds of tokens, or errors with the same
    cause. -/
inductive SameReading : (first second : Except ParseError (List Token)) → Prop
  | ok {ts us : List Token} : ts.map (·.kind) = us.map (·.kind) → SameReading (.ok ts) (.ok us)
  | error (cause : LexicalError) (p q : Position) :
      SameReading (.error (.lexical cause p)) (.error (.lexical cause q))

/-- Readings stay the same behind tokens of the same kinds. -/
theorem SameReading.append {first second : Except ParseError (List Token)}
    (h : SameReading first second) {ts us : List Token}
    (hkinds : ts.map (·.kind) = us.map (·.kind)) :
    SameReading (first.map (ts ++ ·)) (second.map (us ++ ·)) := by
  cases h with
  | ok hrest => exact .ok (by rw [List.map_append, List.map_append, hkinds, hrest])
  | error cause p q => exact .error cause p q

/-- What a text is read as does not depend on where it stands. -/
theorem sameReading_tokens (cs : List Char) (p q : Position) :
    SameReading (Lexer.mk cs p).tokens (Lexer.mk cs q).tokens := by
  induction hn : cs.length using Nat.strongRecOn generalizing cs p q with
  | ind n ih =>
    subst hn
    obtain ⟨skipped, lexeme, rest, outcome, rfl, hpiece, hnext⟩ := exists_piece cs
    cases outcome with
    | error cause =>
      rw [tokens_of_error (hnext p), tokens_of_error (hnext q)]
      exact .error cause _ _
    | ok kind =>
      by_cases heof : kind = .eof
      · rw [tokens_of_eof (hnext p) heof, tokens_of_eof (hnext q) heof]
        exact .ok rfl
      · have hlt : rest.length < (skipped ++ (lexeme ++ rest)).length := by
          have hlexeme := List.length_pos_iff.2 (hpiece.ne_nil heof)
          simp only [List.length_append]
          omega
        have hkinds : [(⟨kind, p.after skipped⟩ : Token)].map (·.kind)
            = [(⟨kind, q.after skipped⟩ : Token)].map (·.kind) := rfl
        rw [tokens_of_ok (hnext p) heof, tokens_of_ok (hnext q) heof]
        exact (ih _ hlt rest _ _ rfl).append hkinds

theorem tokens_filler {filler : List Char} (h : IsFiller filler) (cs : List Char) (p : Position) :
    (Lexer.mk (filler ++ cs) p).tokens = (Lexer.mk cs (p.after filler)).tokens := by
  refine tokens_congr ?_
  unfold next
  dsimp only
  rw [skipGap_filler h]

end Lexer

/-- Behind a text that can be read and a separator, another text is read as if it stood alone: both
    give tokens, or both fail. -/
theorem tokenize_separated {a separator : String} {ts : List Token} (ha : tokenize a = .ok ts)
    (hseparator : IsSeparator separator.toList) (b : String) :
    Lexer.SameReading ((tokenize b).map (ts.dropLast ++ ·)) (tokenize (a ++ separator ++ b)) := by
  obtain ⟨filler, hfiller, hcomplete⟩ := hseparator
  obtain ⟨body, rfl, hjoined⟩ := Lexer.tokens_extend (filler ++ b.toList) ha
  have htext : Lexer.ofString (a ++ separator ++ b)
      = (Lexer.ofString a).extend (filler ++ b.toList) := by
    simp [Lexer.extend, Lexer.ofString, hfiller]
  rw [tokenize, tokenize, htext, hjoined, Lexer.tokens_filler hcomplete, List.dropLast_concat]
  exact (Lexer.sameReading_tokens b.toList _ _).append rfl

/-- Separators are transparent. Behind a text that can be read and a separator, another text can be
    read if and only if it can be read alone. The tokens are then of the kinds of the first text
    without the end of the file, and those of the second; and an error has the same cause, which is
    what its wording tells, at another place. -/
theorem separator_is_transparent {a separator : String} {ts : List Token}
    (ha : tokenize a = .ok ts) (hseparator : IsSeparator separator.toList) (b : String) :
    ((∃ vs, tokenize (a ++ separator ++ b) = .ok vs) ↔ ∃ us, tokenize b = .ok us) ∧
    (∀ us vs, tokenize b = .ok us → tokenize (a ++ separator ++ b) = .ok vs →
      vs.map (·.kind) = (ts.map (·.kind)).dropLast ++ us.map (·.kind)) ∧
    ∀ e, tokenize b = .error e → ∃ cause p q, e = .lexical cause p ∧
      tokenize (a ++ separator ++ b) = .error (.lexical cause q) := by
  have hsame := tokenize_separated ha hseparator b
  generalize tokenize (a ++ separator ++ b) = joined at hsame
  cases hb : tokenize b with
  | error e =>
    rw [hb] at hsame
    cases hsame with
    | error cause p q =>
      refine ⟨by simp, by simp, fun e he => ?_⟩
      obtain rfl := Except.error.inj he
      exact ⟨cause, p, q, rfl, rfl⟩
  | ok us =>
    rw [hb] at hsame
    cases hsame with
    | ok hkinds =>
      refine ⟨by simp, fun us' vs hus hvs => ?_, by simp⟩
      obtain rfl := Except.ok.inj hus
      obtain rfl := Except.ok.inj hvs
      rw [← hkinds, List.map_append, List.map_dropLast]

/-- The line feed ends the line comment in front of it, and what the comments behind it hold is no
    comment and no string. -/
theorem separator_is_transparent_comments :
    tokenize "1 // \"" = .ok [⟨.integer 1, ⟨1, 1⟩⟩, ⟨.eof, ⟨1, 7⟩⟩] ∧
    IsSeparator "\n/*//**/ //\"/*\n".toList ∧
    (∃ vs, tokenize ("1 // \"" ++ "\n/*//**/ //\"/*\n" ++ "1 // \"") = .ok vs ∧
      vs.map (·.kind) = [.integer 1, .integer 1, .eof]) ∧
    ∃ q, tokenize ("1 // \"" ++ "\n/*//**/ //\"/*\n" ++ "/*")
      = .error (.lexical .unterminatedComment q) := by
  have ha : tokenize "1 // \"" = .ok [⟨.integer 1, ⟨1, 1⟩⟩, ⟨.eof, ⟨1, 7⟩⟩] := by
    have hone : (Lexer.ofString "1 // \"").next
        = (.ok ⟨.integer 1, ⟨1, 1⟩⟩, ⟨" // \"".toList, ⟨1, 2⟩⟩) := by rfl
    have hend : (Lexer.mk " // \"".toList ⟨1, 2⟩).next
        = (.ok ⟨.eof, ⟨1, 7⟩⟩, ⟨[], ⟨1, 7⟩⟩) := by rfl
    rw [tokenize, Lexer.tokens_of_ok hone (by simp), Lexer.tokens_of_eof hend rfl]
    rfl
  have hseparator : IsSeparator "\n/*//**/ //\"/*\n".toList :=
    ⟨'/' :: '*' :: (['/', '/', '*'] ++
        '*' :: '/' :: ' ' :: '/' :: '/' :: (['"', '/', '*'] ++ ['\n'])),
      by decide, .blockComment (by decide) (.blank (by decide) (.lineComment (by decide) .nil))⟩
  refine ⟨ha, hseparator, ?_, ?_⟩
  · obtain ⟨hiff, hkinds, -⟩ := separator_is_transparent ha hseparator "1 // \""
    obtain ⟨vs, hvs⟩ := hiff.2 ⟨_, ha⟩
    exact ⟨vs, hvs, hkinds _ vs ha hvs⟩
  · have hopen : tokenize "/*" = .error (.lexical .unterminatedComment ⟨1, 1⟩) :=
      Lexer.tokens_of_error rfl
    obtain ⟨-, -, herror⟩ := separator_is_transparent ha hseparator "/*"
    obtain ⟨cause, p, q, hcause, hjoined⟩ := herror _ hopen
    obtain ⟨rfl, -⟩ := ParseError.lexical.inj hcause
    exact ⟨q, hjoined⟩

end IdlBind
