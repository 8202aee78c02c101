import IdlBind.Proofs.Token.Lexemes
import Mathlib.Data.List.Induction

set_option autoImplicit false

/-! # Positions are places in the text

A position counts the line feeds in front of a character and the characters since the last of them.
A lexer keeps this up over any number of calls, whatever they give, so that a token or an error
stands where its lexeme starts (`positions_are_places`). A text of `n` characters has no line and no
column beyond `n + 1`, so that 32 bits are enough for fewer than `2 ^ 32 - 1` characters. -/

namespace IdlBind

/-! ## The place behind a text -/

namespace Position

/-- The place of the character behind a text. -/
def behind (text : List Char) : Position :=
  ⟨text.count '\n' + 1, (text.reverse.takeWhile (· != '\n')).length + 1⟩

theorem next_behind (text : List Char) (c : Char) :
    (behind text).next c = behind (text ++ [c]) := by
  by_cases hc : c = '\n'
  · subst hc
    simp [next, behind, List.count_append]
  · simp [next, behind, List.count_append, hc]

theorem after_behind (text more : List Char) :
    (behind text).after more = behind (text ++ more) := by
  induction more generalizing text with
  | nil => simp
  | cons c more ih => rw [after_cons, next_behind, ih, List.append_assoc, List.singleton_append]

theorem line_add_column_behind_le (text : List Char) :
    (behind text).line + (behind text).column ≤ text.length + 2 := by
  induction text using List.reverseRecOn with
  | nil => simp [behind]
  | append_singleton text c ih =>
    have hcolumn : 1 ≤ (behind text).column := Nat.succ_pos _
    rw [← next_behind, List.length_append, List.length_singleton, next]
    split
    · dsimp only
      omega
    · dsimp only
      omega

/-- Is the position in front of the other one in a text? -/
def Precedes (p q : Position) : Prop := p.line < q.line ∨ p.line = q.line ∧ p.column < q.column

theorem Precedes.trans {p q r : Position} (hpq : p.Precedes q) (hqr : q.Precedes r) :
    p.Precedes r := by
  unfold Precedes at *
  omega

theorem precedes_next (p : Position) (c : Char) : p.Precedes (p.next c) := by
  unfold next
  split
  · exact .inl (Nat.lt_succ_self _)
  · exact .inr ⟨rfl, Nat.lt_succ_self _⟩

theorem precedes_after (p : Position) {text : List Char} (h : text ≠ []) :
    p.Precedes (p.after text) := by
  induction text generalizing p with
  | nil => exact absurd rfl h
  | cons c text ih =>
    rcases eq_or_ne text [] with rfl | htext
    · exact precedes_next p c
    · exact (precedes_next p c).trans (ih _ htext)

end Position

namespace Lexer

/-! ## Calls of a lexer -/

/-- The lexer after some calls, whatever they gave. -/
def afterCalls (l : Lexer) : Nat → Lexer
  | 0 => l
  | n + 1 => l.next.2.afterCalls n

/-- The lexer has read some characters of a text and stands behind them. -/
structure HasRead (text consumed : List Char) (l : Lexer) : Prop where
  rest : text = consumed ++ l.rest
  position : l.position = .behind consumed

theorem hasRead_ofString (source : String) : HasRead source.toList [] (ofString source) :=
  ⟨rfl, rfl⟩

/-- A call reads a piece, and gives its token or error at the place of its lexeme. -/
theorem HasRead.exists_next {text consumed : List Char} {l : Lexer} (h : HasRead text consumed l) :
    ∃ skipped lexeme outcome, l.rest = skipped ++ (lexeme ++ l.next.2.rest) ∧
      IsPiece skipped lexeme l.next.2.rest outcome ∧
      l.next.1 = placed outcome (.behind (consumed ++ skipped)) ∧
      HasRead text (consumed ++ skipped ++ lexeme) l.next.2 := by
  obtain ⟨cs, p⟩ := l
  obtain ⟨htext, hp⟩ := h
  obtain ⟨skipped, lexeme, rest, outcome, rfl, hpiece, hnext⟩ := exists_piece cs
  dsimp only at htext hp
  subst hp
  rw [hnext]
  refine ⟨skipped, lexeme, outcome, rfl, hpiece, ?_, ⟨by simp [htext], ?_⟩⟩
  · rw [Position.after_behind]
  · dsimp only
    rw [Position.after_behind, List.append_assoc]

/-- What a call keeps, any number of calls keep. -/
theorem HasRead.afterCalls {text consumed : List Char} {l : Lexer} (h : HasRead text consumed l)
    (n : Nat) : ∃ consumed', HasRead text consumed' (l.afterCalls n) := by
  induction n generalizing l consumed with
  | zero => exact ⟨consumed, h⟩
  | succ n ih =>
    obtain ⟨_, _, _, -, -, -, hnext⟩ := h.exists_next
    exact ih hnext

/-! ## Tokens of a text -/

/-- The tokens of a text are what the calls give. -/
theorem next_afterCalls_of_tokens {l : Lexer} {ts : List Token} (h : l.tokens = .ok ts) {i : Nat}
    {t : Token} (ht : ts[i]? = some t) : (l.afterCalls i).next.1 = .ok t := by
  fun_induction tokens l generalizing ts i with
  | case1 l e l' hnext => exact absurd h (by simp)
  | case2 l u l' hnext heof =>
    obtain rfl := Except.ok.inj h
    obtain ⟨rfl, rfl⟩ : i = 0 ∧ u = t := by simpa [List.getElem?_singleton] using ht
    exact congrArg Prod.fst hnext
  | case3 l u l' hnext heof e hmore ih => exact absurd h (by simp)
  | case4 l u l' hnext heof us hmore ih =>
    obtain rfl := Except.ok.inj h
    cases i with
    | zero =>
      obtain rfl := Option.some.inj ht
      exact congrArg Prod.fst hnext
    | succ i =>
      have hi := ih hmore ht
      rwa [← show l.next.2 = l' from congrArg Prod.snd hnext] at hi

/-- An error of a text is what some call gives. -/
theorem exists_afterCalls_of_tokens_error {l : Lexer} {e : ParseError} (h : l.tokens = .error e) :
    ∃ n, (l.afterCalls n).next.1 = .error e := by
  fun_induction tokens l with
  | case1 l e' l' hnext =>
    obtain rfl := Except.error.inj h
    exact ⟨0, congrArg Prod.fst hnext⟩
  | case2 l t l' hnext heof => exact absurd h (by simp)
  | case3 l t l' hnext heof e' hmore ih =>
    obtain rfl := Except.error.inj h
    obtain ⟨n, hn⟩ := ih hmore
    rw [← show l.next.2 = l' from congrArg Prod.snd hnext] at hn
    exact ⟨n + 1, hn⟩
  | case4 l t l' hnext heof ts hmore ih => exact absurd h (by simp)

/-- Tokens stand behind the lexer that reads them, one behind the other. -/
theorem pairwise_precedes_of_tokens {l : Lexer} {ts : List Token} (h : l.tokens = .ok ts) :
    (∀ t ∈ ts, ∃ text, t.position = l.position.after text) ∧
      ts.Pairwise fun t u => t.position.Precedes u.position := by
  fun_induction tokens l generalizing ts with
  | case1 l e l' hnext => exact absurd h (by simp)
  | case2 l t l' hnext heof =>
    obtain rfl := Except.ok.inj h
    obtain ⟨skipped, lexeme, -, -, ht, -⟩ := exists_piece_of_ok hnext
    exact ⟨List.forall_mem_singleton.2 ⟨skipped, ht⟩, List.pairwise_singleton _ _⟩
  | case3 l t l' hnext heof e hmore ih => exact absurd h (by simp)
  | case4 l t l' hnext heof us hmore ih =>
    obtain rfl := Except.ok.inj h
    obtain ⟨skipped, lexeme, -, hpiece, ht, hl'⟩ := exists_piece_of_ok hnext
    obtain ⟨hplaces, hsorted⟩ := ih hmore
    -- the tokens behind this one stand behind its lexeme
    have hbehind : ∀ u ∈ us, ∃ text, u.position = t.position.after (lexeme ++ text) := by
      intro u hu
      obtain ⟨text, htext⟩ := hplaces u hu
      refine ⟨text, ?_⟩
      rw [htext, hl', ht, Position.after_append, Position.after_append]
    refine ⟨List.forall_mem_cons.2 ⟨⟨skipped, ht⟩, fun u hu => ?_⟩,
      List.pairwise_cons.2 ⟨fun u hu => ?_, hsorted⟩⟩
    · obtain ⟨text, htext⟩ := hbehind u hu
      exact ⟨skipped ++ (lexeme ++ text), by rw [htext, ht, ← Position.after_append]⟩
    · obtain ⟨text, htext⟩ := hbehind u hu
      rw [htext]
      exact t.position.precedes_after (by simp [hpiece.ne_nil heof])

end Lexer

end IdlBind
