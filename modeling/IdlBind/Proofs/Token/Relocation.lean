import IdlBind.Token.Lexer

set_option autoImplicit false

/-! # Tokens at other places

What a text is read as depends on where it stands only through the positions of the tokens and of
the error. A text that starts some lines further down has the same tokens further down
(`Lexer.tokens_shift`). -/

namespace IdlBind

variable (g : Position → Position) (k : Nat)

/-- The position some lines further down. -/
def Position.shift (p : Position) : Position := ⟨p.line + k, p.column⟩

/-- The token at another place. -/
def Token.relocate (t : Token) : Token := ⟨t.kind, g t.position⟩

/-- The error at another place. -/
def ParseError.relocate : ParseError → ParseError
  | .lexical cause p => .lexical cause (g p)
  | .statement cause p => .statement cause (g p)
  | .unexpectedToken expected found p => .unexpectedToken expected found (g p)
  | .unexpectedEof expected => .unexpectedEof expected

@[simp] theorem Token.kind_relocate (t : Token) : (t.relocate g).kind = t.kind := rfl

namespace Position

theorem next_shift (p : Position) (c : Char) : (p.shift k).next c = (p.next c).shift k := by
  unfold next
  split
  · simp only [shift, Position.mk.injEq, and_true]
    omega
  · rfl

theorem after_shift (p : Position) (text : List Char) :
    (p.shift k).after text = (p.after text).shift k := by
  induction text generalizing p with
  | nil => rfl
  | cons c cs ih => rw [after_cons, after_cons, next_shift, ih]

end Position

namespace Lexer

/-- The lexer some lines further down. -/
def shift (l : Lexer) : Lexer := ⟨l.rest, l.position.shift k⟩

/-- The gap some lines further down. -/
def Gap.shift : Gap → Gap
  | .blank => .blank
  | .lineComment => .lineComment
  | .blockComment start => .blockComment (start.shift k)

theorem skipGap_shift (gap : Gap) (cs : List Char) (p : Position) :
    skipGap (gap.shift k) cs (p.shift k)
      = ((skipGap gap cs p).1.map (·.shift k), (skipGap gap cs p).2.shift k) := by
  fun_induction skipGap gap cs p with
  | case1 => rfl
  | case2 p cs ih => exact ih
  | case3 p cs ih => exact ih
  | case4 c cs p hline hblock hc ih =>
    show skipGap .blank (c :: cs) (p.shift k) = _
    rw [skipGap_blank_cons _ hline hblock, if_pos hc, Position.next_shift]
    exact ih
  | case5 c cs p hline hblock hc =>
    show skipGap .blank (c :: cs) (p.shift k) = _
    rw [skipGap_blank_cons _ hline hblock, if_neg hc]
    rfl
  | case6 => rfl
  | case7 c cs p ih =>
    rw [← ih, ← Position.next_shift]
    show skipGap (if c = '\n' then .blank else .lineComment) cs _ = _
    split <;> rfl
  | case8 => rfl
  | case9 p start cs ih => exact ih
  | case10 start c cs p hend ih =>
    show skipGap (.blockComment (start.shift k)) (c :: cs) (p.shift k) = _
    rw [skipGap_blockComment_cons _ _ hend, Position.next_shift]
    exact ih

theorem readString_shift (cs : List Char) (p : Position) :
    readString cs (p.shift k) = ((readString cs p).1, (readString cs p).2.shift k) := by
  fun_induction readString cs p <;> simp_all [readString, Position.next_shift, shift]

theorem readCode_shift (cs : List Char) (p : Position) :
    readCode cs (p.shift k) = ((readCode cs p).1, (readCode cs p).2.shift k) := by
  fun_induction readCode cs p <;> simp_all [readCode, Position.next_shift, shift]

theorem readUnsigned_shift (negative : Bool) (cs : List Char) (p : Position) :
    readUnsigned negative cs (p.shift k)
      = ((readUnsigned negative cs p).1, (readUnsigned negative cs p).2.shift k) := by
  unfold readUnsigned
  split
  · split
    · dsimp only
      rw [Position.after_shift, Position.after_shift]
      rfl
    · simp [readUnsigned.readDecimal, Position.after_shift, shift]
  · simp [readUnsigned.readDecimal, Position.after_shift, shift]

theorem readNumber_shift (cs : List Char) (p : Position) :
    readNumber cs (p.shift k) = ((readNumber cs p).1, (readNumber cs p).2.shift k) := by
  unfold readNumber
  split
  · rw [Position.next_shift, readUnsigned_shift]
  · rw [readUnsigned_shift]

theorem readKind_shift (cs : List Char) (p : Position) :
    readKind cs (p.shift k) = ((readKind cs p).1, (readKind cs p).2.shift k) := by
  unfold readKind
  split
  · rfl
  · rename_i rest
    rw [Position.next_shift, readString_shift]
    rcases readString rest (p.next '"') with ⟨_ | text, l⟩ <;> rfl
  · rename_i rest
    rw [Position.after_shift, readCode_shift]
    rcases readCode rest (p.after ['%', '{']) with ⟨_ | code, l⟩ <;> rfl
  · rw [Position.after_shift]
    rfl
  · rw [Position.after_shift]
    rfl
  · split
    · rw [readNumber_shift]
    · split
      · dsimp only
        rw [Position.after_shift]
        rfl
      · split
        · rw [Position.next_shift]
          rfl
        · rfl

theorem next_shift (l : Lexer) :
    (l.shift k).next = ((l.next.1.map (·.relocate (·.shift k))).mapError (·.relocate (·.shift k)),
      l.next.2.shift k) := by
  obtain ⟨cs, p⟩ := l
  have hgap := skipGap_shift k .blank cs p
  rw [show Gap.blank.shift k = .blank from rfl] at hgap
  show next ⟨cs, p.shift k⟩ = _
  unfold next
  dsimp only
  rw [hgap]
  rcases skipGap .blank cs p with ⟨_ | start, ⟨cs', p'⟩⟩
  · simp only [Option.map_none, shift, readKind_shift]
    rcases readKind cs' p' with ⟨cause | kind, l'⟩ <;> rfl
  · rfl

/-- A text that starts further down has the same tokens further down, or the same error. -/
theorem tokens_shift (l : Lexer) :
    (l.shift k).tokens = (l.tokens.map (·.map (·.relocate (·.shift k)))).mapError
      (·.relocate (·.shift k)) := by
  have hok : ∀ {l l' : Lexer} {t : Token}, l.next = (.ok t, l') →
      (l.shift k).next = (.ok (t.relocate (·.shift k)), l'.shift k) := by
    intro l l' t hnext
    rw [next_shift, hnext]
    rfl
  fun_induction tokens l with
  | case1 l e l' hnext =>
    exact tokens_of_error (by rw [next_shift, hnext]; rfl)
  | case2 l t l' hnext heof => exact tokens_of_eof (hok hnext) heof
  | case3 l t l' hnext heof e htokens ih =>
    rw [tokens_of_ok (hok hnext) heof, ih, htokens]
    rfl
  | case4 l t l' hnext heof ts htokens ih =>
    rw [tokens_of_ok (hok hnext) heof, ih, htokens]
    rfl

end Lexer

end IdlBind
