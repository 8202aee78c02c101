import IdlBind.Proofs.Token.Printed

set_option autoImplicit false

/-! # Names of tokens

Every identifier among the tokens of a text starts with an ASCII letter or an underscore and goes on
with letters, digits, underscores and hyphens (`isLexical_of_mem_tokens`). -/

namespace IdlBind

/-- If the token is an identifier, then its name may be one. -/
def Token.IsLexical (t : Token) : Prop :=
  ∀ name, t.kind = .ident name → isIdentifier name = true

namespace Lexer

theorem isIdentifier_of_readKind {cs : List Char} {p : Position} {name : String} {l : Lexer}
    (h : readKind cs p = (.ok (.ident name), l)) : isIdentifier name = true := by
  rw [readKind.eq_def] at h
  split at h
  · exact absurd h (by simp)
  · split at h <;> exact absurd h (by simp)
  · split at h <;> exact absurd h (by simp)
  · exact absurd h (by simp)
  · exact absurd h (by simp)
  · rename_i c rest _ _ _ _
    split at h
    · rcases readNumber_cases (congrArg Prod.fst h) with ⟨value, hvalue⟩ | ⟨value, hvalue⟩
      · exact absurd hvalue (by simp)
      · exact absurd hvalue (by simp)
    · split at h
      · rename_i hstart
        obtain ⟨rfl, -⟩ : String.ofList (c :: rest.takeWhile continuesIdent) = name ∧ _ = l := by
          simpa using h
        simp [isIdentifier, hstart]
      · split at h <;> exact absurd h (by simp)

/-- The tokens of a text are lexical. -/
theorem isLexical_of_mem_tokens {l : Lexer} {ts : List Token} (h : l.tokens = .ok ts) :
    ∀ t ∈ ts, t.IsLexical := by
  have hnext : ∀ {l l' : Lexer} {t : Token}, l.next = (.ok t, l') → t.IsLexical := by
    intro l l' t h name hname
    obtain ⟨m, -, hkind, -⟩ := next_eq_ok_iff.1 h
    exact isIdentifier_of_readKind (hname ▸ hkind)
  fun_induction tokens l generalizing ts with
  | case1 l e l' hl => exact absurd h (by simp)
  | case2 l t l' hl ht =>
    obtain rfl := Except.ok.inj h
    intro t' ht'
    rw [List.mem_singleton.1 ht']
    exact hnext hl
  | case3 l t l' hl ht e hmore ih => exact absurd h (by simp)
  | case4 l t l' hl ht ts' hmore ih =>
    obtain rfl := Except.ok.inj h
    exact List.forall_mem_cons.2 ⟨hnext hl, ih hmore⟩

end Lexer

theorem TokenStream.isLexical_of_mem_ahead {source : String} {stream : TokenStream}
    (h : ofString source = .ok stream) : ∀ t ∈ stream.ahead, t.IsLexical := fun t ht =>
  Lexer.isLexical_of_mem_tokens (tokenize_eq h) t (List.mem_append_left _ ht)

end IdlBind
