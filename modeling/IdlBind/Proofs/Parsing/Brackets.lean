import IdlBind.Proofs.Parsing.Basic
import IdlBind.Token.Parser

set_option autoImplicit false

/-! # Bracket depth

What is skipped, said by counting brackets: a group whose inner tokens are balanced is skipped as a
whole (`skipGroup_group`), and so is a statement up to its only semicolon outside brackets
(`skipStatement_statement`), whatever follows. -/

namespace IdlBind.TokenParser

/-- How many brackets are open behind the tokens if `depth` are open in front of them; `none` if one
    is closed that is not open. -/
def depthBehind? (opens closes : Token → Bool) : Nat → List Token → Option Nat
  | depth, [] => some depth
  | depth, t :: ts =>
    if opens t then depthBehind? opens closes (depth + 1) ts
    else if closes t then
      if depth = 0 then none else depthBehind? opens closes (depth - 1) ts
    else depthBehind? opens closes depth ts

section

variable {opens closes : Token → Bool} {t : Token}

theorem depthBehind?_opens (h : opens t = true) (depth : Nat) (ts : List Token) :
    depthBehind? opens closes depth (t :: ts) = depthBehind? opens closes (depth + 1) ts := by
  rw [depthBehind?, if_pos h]

theorem depthBehind?_closes (h : opens t = false) (h' : closes t = true) (depth : Nat)
    (ts : List Token) :
    depthBehind? opens closes (depth + 1) (t :: ts) = depthBehind? opens closes depth ts := by
  rw [depthBehind?, if_neg (by simp [h]), if_pos h', if_neg (Nat.succ_ne_zero depth)]
  rfl

theorem depthBehind?_zero_closes (h : opens t = false) (h' : closes t = true) (ts : List Token) :
    depthBehind? opens closes 0 (t :: ts) = none := by
  rw [depthBehind?, if_neg (by simp [h]), if_pos h', if_pos rfl]

theorem depthBehind?_other (h : opens t = false) (h' : closes t = false) (depth : Nat)
    (ts : List Token) :
    depthBehind? opens closes depth (t :: ts) = depthBehind? opens closes depth ts := by
  rw [depthBehind?, if_neg (by simp [h]), if_neg (by simp [h'])]

end

/-! ## Groups -/

/-- A group in brackets of one kind, between which these brackets are balanced. -/
inductive IsGroup (opening closing : Char) : List Token → Prop
  | intro {first last : Token} {inner : List Token} (opens : first.isPunct opening = true)
      (balanced : depthBehind? (·.isPunct opening) (·.isPunct closing) 0 inner = some 0)
      (closes : last.isPunct closing = true) :
      IsGroup opening closing (first :: (inner ++ [last]))

theorem isPunct_ne {c c' : Char} (hne : c ≠ c') {t : Token} (h : t.isPunct c = true) :
    t.isPunct c' = false := by
  have hkind : t.kind = .punct c := by simpa [Token.isPunct] using h
  simp [Token.isPunct, hkind, hne]

/-- Skipping goes on behind tokens whose depth is known. -/
theorem closeGroup_append {opening closing : Char} {depth depth' : Nat} {ts : List Token}
    (h : depthBehind? (·.isPunct opening) (·.isPunct closing) depth ts = some depth')
    (rest : List Token) :
    closeGroup opening closing (depth + 1) (ts ++ rest)
      = closeGroup opening closing (depth' + 1) rest := by
  induction ts generalizing depth with
  | nil =>
    obtain rfl := Option.some.inj h
    rfl
  | cons t ts ih =>
    rw [List.cons_append, closeGroup]
    cases hopens : t.isPunct opening with
    | true =>
      rw [depthBehind?_opens hopens] at h
      rw [if_pos rfl]
      exact ih h
    | false =>
      rw [if_neg Bool.false_ne_true]
      cases hcloses : t.isPunct closing with
      | true =>
        cases depth with
        | zero =>
          rw [depthBehind?_zero_closes hopens hcloses] at h
          exact absurd h (by simp)
        | succ depth =>
          rw [depthBehind?_closes hopens hcloses] at h
          rw [if_pos rfl]
          exact ih h
      | false =>
        rw [depthBehind?_other hopens hcloses] at h
        rw [if_neg Bool.false_ne_true]
        exact ih h

/-- A group is skipped, whatever follows it. -/
theorem skipGroup_group {opening closing : Char} (hne : closing ≠ opening) {group : List Token}
    (h : IsGroup opening closing group) (rest : List Token) :
    skipGroup opening closing (group ++ rest) = .ok ((), rest) := by
  obtain ⟨hfirst, hbalanced, hlast⟩ := h
  rename_i first last inner
  have hopening : expectPunct opening (first :: (inner ++ [last] ++ rest))
      = .ok ((), inner ++ [last] ++ rest) := by
    unfold expectPunct
    rw [Parser.bind_apply, show acceptPunct opening (first :: (inner ++ [last] ++ rest))
      = .ok (true, inner ++ [last] ++ rest) from if_pos hfirst]
    rfl
  have hclose : closeGroup opening closing 1 (inner ++ [last] ++ rest) = .ok rest := by
    rw [List.append_assoc, closeGroup_append hbalanced, List.singleton_append, closeGroup,
      if_neg (by simp [isPunct_ne hne hlast]), if_pos hlast, closeGroup]
  unfold skipGroup
  rw [List.cons_append, Parser.bind_apply_of_ok hopening]
  show Except.map _ (closeGroup opening closing 1 (inner ++ [last] ++ rest)) = _
  rw [hclose]
  rfl

/-! ## Statements -/

/-- The end of a statement from within `depth` brackets: the tokens end with a semicolon, all
    brackets are closed before, and there is no other semicolon outside brackets. -/
structure EndsStatement (depth : Nat) (ts : List Token) : Prop where
  last : ts.getLast?.any (·.isPunct ';') = true
  balanced : depthBehind? opensBracket closesBracket depth ts = some 0
  only : ∀ {before behind : List Token} {t : Token}, ts = before ++ t :: behind →
    t.isPunct ';' = true → depthBehind? opensBracket closesBracket depth before = some 0 →
    behind = []

/-- The end of a statement, said token by token. -/
theorem endsStatement_iff {depth : Nat} {ts : List Token} : EndsStatement depth ts ↔
    ts.getLast?.any (·.isPunct ';') = true ∧
    depthBehind? opensBracket closesBracket depth ts = some 0 ∧
    ∀ i : Fin ts.length, ts[i].isPunct ';' = true →
      depthBehind? opensBracket closesBracket depth (ts.take i) = some 0 → i + 1 = ts.length := by
  constructor
  · rintro ⟨hlast, hbalanced, honly⟩
    refine ⟨hlast, hbalanced, fun i hi hdepth => ?_⟩
    have hsplit : ts = ts.take i ++ ts[i] :: ts.drop (i + 1) := by simp
    have hbehind : ts.drop (i + 1) = [] := honly hsplit hi hdepth
    exact Nat.le_antisymm i.isLt (List.drop_eq_nil_iff.1 hbehind)
  · rintro ⟨hlast, hbalanced, honly⟩
    refine ⟨hlast, hbalanced, fun {before behind t} hsplit ht hdepth => ?_⟩
    subst hsplit
    have hend := honly ⟨before.length, by simp⟩ (by simpa using ht) (by simpa using hdepth)
    simpa using hend

instance (depth : Nat) (ts : List Token) : Decidable (EndsStatement depth ts) :=
  decidable_of_iff _ endsStatement_iff.symm

/-- A semicolon is no bracket. -/
theorem brackets_semicolon {t : Token} (h : t.isPunct ';' = true) :
    opensBracket t = false ∧ closesBracket t = false := by
  have hkind : t.kind = .punct ';' := by simpa [Token.isPunct] using h
  simp [opensBracket, closesBracket, Token.isPunct, hkind]

namespace EndsStatement

variable {depth depth' : Nat} {t : Token} {ts : List Token}

/-- A token that leads to `depth'` open brackets leaves an end of a statement behind it, unless it
    is that end. -/
theorem tail (h : EndsStatement depth (t :: ts)) (hts : ts ≠ [])
    (hdepth : ∀ us, depthBehind? opensBracket closesBracket depth (t :: us)
      = depthBehind? opensBracket closesBracket depth' us) : EndsStatement depth' ts where
  last := by
    obtain ⟨t', us, rfl⟩ := List.exists_cons_of_ne_nil hts
    exact h.last
  balanced := by
    rw [← hdepth]
    exact h.balanced
  only := by
    intro before behind t' hsplit ht' hbefore
    exact h.only (congrArg (t :: ·) hsplit) ht' ((hdepth before).trans hbefore)

theorem ne_nil_of_not_semicolon (h : EndsStatement depth (t :: ts)) (ht : t.isPunct ';' = false) :
    ts ≠ [] := by
  rintro rfl
  exact absurd h.last (by simp [ht])

/-- An identifier does not end a statement and is no bracket. -/
theorem behindIdent {word : String} {p : Position} (h : EndsStatement 0 (⟨.ident word, p⟩ :: ts)) :
    EndsStatement 0 ts :=
  h.tail (h.ne_nil_of_not_semicolon rfl) (depthBehind?_other rfl rfl 0)

end EndsStatement

/-- A statement is skipped up to its end, whatever follows it. -/
theorem closeStatement_append {depth : Nat} {ts : List Token} (h : EndsStatement depth ts)
    (rest : List Token) : closeStatement depth (ts ++ rest) = .ok rest := by
  induction ts generalizing depth with
  | nil => exact absurd h.last (by simp)
  | cons t ts ih =>
    rw [List.cons_append, closeStatement]
    cases hend : t.isPunct ';' with
    | true =>
      obtain ⟨hopens, hcloses⟩ := brackets_semicolon hend
      have hother := depthBehind?_other (t := t) hopens hcloses depth
      rw [if_neg (by simp [hopens]), if_neg (by simp [hcloses])]
      cases depth with
      | zero =>
        obtain rfl := h.only (List.nil_append (t :: ts)).symm hend rfl
        rfl
      | succ depth =>
        -- brackets are open, so that this is not the end
        have hts : ts ≠ [] := by
          rintro rfl
          exact absurd ((hother []).symm.trans h.balanced) (by simp [depthBehind?])
        exact ih (h.tail hts hother)
    | false =>
      have hts := h.ne_nil_of_not_semicolon hend
      cases hopens : opensBracket t with
      | true =>
        rw [if_pos rfl]
        exact ih (h.tail hts (depthBehind?_opens hopens depth))
      | false =>
        rw [if_neg Bool.false_ne_true]
        cases hcloses : closesBracket t with
        | true =>
          rw [if_pos rfl]
          cases depth with
          | zero =>
            have hnone := h.balanced
            rw [depthBehind?_zero_closes hopens hcloses] at hnone
            exact absurd hnone (by simp)
          | succ depth => exact ih (h.tail hts (depthBehind?_closes hopens hcloses depth))
        | false =>
          rw [if_neg Bool.false_ne_true, if_neg (by simp)]
          exact ih (h.tail hts (depthBehind?_other hopens hcloses depth))

theorem skipStatement_statement {ts : List Token} (h : EndsStatement 0 ts) (rest : List Token) :
    skipStatement (ts ++ rest) = .ok ((), rest) := by
  show Except.map _ (closeStatement 0 (ts ++ rest)) = _
  rw [closeStatement_append h]
  rfl

end IdlBind.TokenParser
