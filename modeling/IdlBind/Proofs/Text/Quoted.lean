import IdlBind.Proofs.Number.Digits
import IdlBind.Text.Quoted

set_option autoImplicit false

/-! # Quoted text can be read back

What stands for a character between the quotes starts no other such text
(`quotedChar_append_inj`), so that quoted text determines the text (`quoted_inj`). It is on one line
(`newline_notMem_quoted`). -/

namespace IdlBind.Text

/-! ## Texts in two parts -/

/-- A text whose first part has only characters of a class, and whose second part starts with none
    of it, can be taken apart. -/
theorem append_inj_of_class {α : Type} {p : α → Bool} {x x' y y' : List α}
    (hx : ∀ a ∈ x, p a = true) (hx' : ∀ a ∈ x', p a = true) (hy : ∀ a ∈ y.head?, p a = false)
    (hy' : ∀ a ∈ y'.head?, p a = false) (h : x ++ y = x' ++ y') : x = x' ∧ y = y' := by
  have hfront : ∀ {u v : List α}, (∀ a ∈ u, p a = true) → (∀ a ∈ v.head?, p a = false) →
      (u ++ v).takeWhile p = u := by
    intro u v hu hv
    rw [List.takeWhile_append_of_pos hu]
    cases v with
    | nil => exact List.append_nil u
    | cons a v => rw [List.takeWhile_cons_of_neg (by simp [hv a rfl]), List.append_nil]
  have hparts : x = x' := by rw [← hfront hx hy, h, hfront hx' hy']
  exact ⟨hparts, List.append_cancel_left (hparts ▸ h)⟩

/-! ## One character -/

/-- The characters that have an escape of two characters, with the second of them. -/
def shortEscapes : List (Char × Char) :=
  [('"', '"'), ('\\', '\\'), ('\n', 'n'), ('\r', 'r'), ('\t', 't'), ('\x00', '0')]

/-- The three kinds of texts for a character. -/
theorem quotedChar_cases (c : Char) :
    (∃ e, (c, e) ∈ shortEscapes ∧ quotedChar c = ['\\', e]) ∨
      quotedChar c = '\\' :: 'u' :: '{' :: (hexDigits c.toNat ++ ['}']) ∨
      (c ≠ '\\' ∧ c ≠ '\n' ∧ quotedChar c = [c]) := by
  by_cases hshort : c ∈ shortEscapes.map Prod.fst
  · obtain ⟨⟨d, e⟩, hmem, rfl⟩ := List.mem_map.1 hshort
    have hescapes : ∀ p ∈ shortEscapes, quotedChar p.1 = ['\\', p.2] := by decide +kernel
    exact .inl ⟨e, hmem, hescapes (d, e) hmem⟩
  · simp only [shortEscapes, List.map_cons, List.map_nil, List.mem_cons, List.not_mem_nil,
      or_false, not_or] at hshort
    obtain ⟨hquote, hbackslash, hline, hreturn, htab, hnul⟩ := hshort
    have hother : quotedChar c = if extendsGrapheme c || !isPrintable c then
        ['\\', 'u', '{'] ++ hexDigits c.toNat ++ ['}'] else [c] := by
      simp [quotedChar, hquote, hbackslash, hline, hreturn, htab, hnul]
    by_cases hcode : (extendsGrapheme c || !isPrintable c) = true
    · exact .inr (.inl (by rw [hother, if_pos hcode]; rfl))
    · exact .inr (.inr ⟨hbackslash, hline, by rw [hother, if_neg hcode]⟩)

theorem quotedChar_ne_nil (c : Char) : quotedChar c ≠ [] := by
  rcases quotedChar_cases c with ⟨e, -, he⟩ | he | ⟨-, -, he⟩ <;> simp [he]

theorem ne_u_of_mem_shortEscapes : ∀ p ∈ shortEscapes, p.2 ≠ 'u' := by decide

theorem eq_of_mem_shortEscapes :
    ∀ p ∈ shortEscapes, ∀ q ∈ shortEscapes, p.2 = q.2 → p = q := by decide

/-- The digits of a code point end at the brace. -/
theorem hexDigits_append_inj {m n : Nat} {x y : List Char}
    (h : hexDigits m ++ '}' :: x = hexDigits n ++ '}' :: y) : m = n ∧ x = y := by
  have hdigits : ∀ {k : Nat}, ∀ c ∈ hexDigits k, c.isAlphanum = true := fun c hc =>
    Number.isAlphanum_of_mem_toDigits (by decide) (Nat.le_refl 16) hc
  have hbrace : ∀ {z : List Char}, ∀ c ∈ ('}' :: z).head?, c.isAlphanum = false := by
    rintro z c hc
    obtain rfl := Option.some.inj hc
    decide
  obtain ⟨hmn, hxy⟩ := append_inj_of_class hdigits hdigits hbrace hbrace h
  exact ⟨Number.toDigits_inj (by decide) (Nat.le_refl 16) hmn, (List.cons.inj hxy).2⟩

/-- What stands for characters is a prefix-free code. -/
theorem quotedChar_append_inj {c d : Char} {x y : List Char}
    (h : quotedChar c ++ x = quotedChar d ++ y) : c = d ∧ x = y := by
  rcases quotedChar_cases c with ⟨e, he, hc⟩ | hc | ⟨hbackslash, -, hc⟩ <;>
    rcases quotedChar_cases d with ⟨f, hf, hd⟩ | hd | ⟨hbackslash', -, hd⟩ <;>
    rw [hc, hd] at h
  · obtain ⟨hef, hxy⟩ := List.cons.inj (List.cons.inj h).2
    exact ⟨congrArg Prod.fst (eq_of_mem_shortEscapes _ he _ hf hef), hxy⟩
  · exact absurd (List.cons.inj (List.cons.inj h).2).1 (ne_u_of_mem_shortEscapes _ he)
  · exact absurd (List.cons.inj h).1.symm hbackslash'
  · exact absurd (List.cons.inj (List.cons.inj h).2).1.symm (ne_u_of_mem_shortEscapes _ hf)
  · have hcodes : hexDigits c.toNat ++ '}' :: x = hexDigits d.toNat ++ '}' :: y := by
      simpa using h
    obtain ⟨hcode, hxy⟩ := hexDigits_append_inj hcodes
    exact ⟨Char.toNat_inj.1 hcode, hxy⟩
  · exact absurd (List.cons.inj h).1.symm hbackslash'
  · exact absurd (List.cons.inj h).1 hbackslash
  · exact absurd (List.cons.inj h).1 hbackslash
  · exact List.cons.inj h

theorem newline_notMem_quotedChar (c : Char) : '\n' ∉ quotedChar c := by
  rcases quotedChar_cases c with ⟨e, he, hc⟩ | hc | ⟨-, hline, hc⟩ <;> rw [hc]
  · have hne : ∀ p ∈ shortEscapes, '\n' ∉ ['\\', p.2] := by decide
    exact hne (c, e) he
  · have hdigits : '\n' ∉ hexDigits c.toNat := fun hmem =>
      absurd (Number.isAlphanum_of_mem_toDigits (by decide) (Nat.le_refl 16) hmem) (by decide)
    simp [hdigits]
  · simpa using Ne.symm hline

/-! ## Quoted texts -/

theorem toList_quoted (text : String) :
    (quoted text).toList = '"' :: (text.toList.flatMap quotedChar ++ ['"']) :=
  String.toList_ofList

/-- What stands for a text between the quotes determines it. -/
theorem flatMap_quotedChar_inj {cs ds : List Char}
    (h : cs.flatMap quotedChar = ds.flatMap quotedChar) : cs = ds := by
  induction cs generalizing ds with
  | nil =>
    cases ds with
    | nil => rfl
    | cons d ds => exact absurd (List.append_eq_nil_iff.1 h.symm).1 (quotedChar_ne_nil d)
  | cons c cs ih =>
    cases ds with
    | nil => exact absurd (List.append_eq_nil_iff.1 h).1 (quotedChar_ne_nil c)
    | cons d ds =>
      rw [List.flatMap_cons, List.flatMap_cons] at h
      obtain ⟨rfl, hrest⟩ := quotedChar_append_inj h
      rw [ih hrest]

/-- Different texts are quoted differently. -/
theorem quoted_inj {s t : String} (h : (quoted s).toList = (quoted t).toList) : s = t := by
  rw [toList_quoted, toList_quoted] at h
  have hcontents := List.append_cancel_right (List.cons.inj h).2
  exact String.toList_inj.1 (flatMap_quotedChar_inj hcontents)

/-- Quoted text is on one line. -/
theorem newline_notMem_quoted (text : String) : '\n' ∉ (quoted text).toList := by
  rw [toList_quoted]
  intro hmem
  rcases List.mem_append.1 ((List.mem_cons.1 hmem).resolve_left (by decide)) with hmem | hmem
  · obtain ⟨c, -, hc⟩ := List.mem_flatMap.1 hmem
    exact newline_notMem_quotedChar c hc
  · exact absurd (List.mem_singleton.1 hmem) (by decide)

end IdlBind.Text
