import IdlBind.Proofs.Parsing.Local
import IdlBind.Token.Parser

set_option autoImplicit false

/-! # The steps of both readers are local

Single tokens are looked at or taken; groups and statements that are skipped end where their
brackets say so, whatever follows. -/

namespace IdlBind

/-- The name of an identifier. -/
def TokenKind.ident? : TokenKind → Option String
  | .ident name => some name
  | _ => none

namespace TokenParser

open IdlBind.Parser

variable {α : Type} {g : Position → Position}

/-! ## Single tokens -/

variable {N M : Nat}

theorem relocate_unexpectedError (expected : Expectation) (ts : List Token) :
    (unexpectedError expected ts).relocate g = unexpectedError expected (moved g ts) := by
  cases ts <;> rfl

theorem unexpected_local {n k : Nat} (expected : Expectation) :
    Local g N M n k (unexpected expected : TokenParser α) (unexpected expected) where
  taken := by
    intro ts a rest _ h
    exact absurd h (by simp [unexpected])
  ok := by
    intro front rest rest' a _ _ _ h
    exact absurd h (by simp [unexpected])
  error := by
    intro ts e _ _ h
    obtain rfl := Except.error.inj h
    rw [relocate_unexpectedError]
    rfl

theorem atEnd_local : Local g N M 0 1 atEnd atEnd := by
  refine Local.look fun {ts us} halike => ?_
  cases ts with
  | nil => rw [halike.eq_nil (Nat.le_refl 1)]
  | cons t ts =>
    obtain ⟨t', us', rfl, -⟩ := halike.exists_cons (Nat.le_refl 1)
    rfl

theorem checkPunct_local (c : Char) : Local g N M 0 1 (checkPunct c) (checkPunct c) :=
  Local.look fun halike => halike.head?_any (Nat.le_refl 1) (· == .punct c)

theorem checkIdent_local (name : String) : Local g N M 0 1 (checkIdent name) (checkIdent name) :=
  Local.look fun halike => halike.head?_any (Nat.le_refl 1) (· == .ident name)

theorem skip_local : Local g N M 0 1 skip skip where
  taken := by
    intro ts a rest _ h
    obtain ⟨-, rfl⟩ := Prod.mk.inj (Except.ok.inj h)
    cases ts with
    | nil => exact ⟨[], rfl, Nat.le_refl _⟩
    | cons t ts => exact ⟨[t], rfl, Nat.zero_le _⟩
  ok := by
    intro front rest rest' a _ _ halike h
    obtain ⟨-, hrest⟩ := Prod.mk.inj (Except.ok.inj h)
    rcases front with _ | ⟨t, front⟩
    · -- at the end nothing is taken
      cases rest with
      | nil =>
        obtain rfl := halike.eq_nil (Nat.le_refl 1)
        rfl
      | cons t rest => exact absurd hrest (List.cons_ne_self t rest).symm
    · obtain rfl : front = [] := List.append_left_eq_self.1 hrest
      rfl
  error := by
    intro ts e _ _ h
    exact absurd h (by simp [skip])

theorem acceptPunct_accepts (c : Char) :
    Accepts (acceptPunct c) (fun kind => if kind == .punct c then some true else none) false := by
  refine ⟨rfl, fun t rest => ?_⟩
  show (if t.kind == .punct c then _ else _) = _
  split <;> rfl

theorem acceptPunct_local (c : Char) : Local g N M 0 1 (acceptPunct c) (acceptPunct c) :=
  Local.accept (acceptPunct_accepts c)

theorem acceptIdent_accepts (name : String) :
    Accepts (acceptIdent name) (fun kind => if kind == .ident name then some true else none)
      false := by
  refine ⟨rfl, fun t rest => ?_⟩
  show (if t.kind == .ident name then _ else _) = _
  split <;> rfl

theorem acceptIdent_local (name : String) :
    Local g N M 0 1 (acceptIdent name) (acceptIdent name) :=
  Local.accept (acceptIdent_accepts name)

theorem expectPunct_expects (c : Char) :
    Expects (expectPunct c) (fun kind => if kind == .punct c then some () else none)
      (.punct c) := by
  refine ⟨rfl, fun t rest => ?_⟩
  have haccept : acceptPunct c (t :: rest)
      = if t.kind == .punct c then .ok (true, rest) else .ok (false, t :: rest) := rfl
  unfold expectPunct
  rw [bind_apply, haccept]
  by_cases hc : t.kind == .punct c
  · rw [if_pos hc, if_pos hc]
    rfl
  · rw [if_neg hc, if_neg hc]
    rfl

theorem expectPunct_local (c : Char) : Local g N M 1 0 (expectPunct c) (expectPunct c) :=
  Local.expect (expectPunct_expects c)

theorem expectIdent_expects : Expects expectIdent TokenKind.ident? .identifier := by
  refine ⟨rfl, ?_⟩
  rintro ⟨kind, position⟩ rest
  cases kind <;> rfl

theorem expectIdent_local : Local g N M 1 0 expectIdent expectIdent :=
  Local.expect expectIdent_expects

theorem acceptPunct_bind_cons (c : Char) (found other : TokenParser α) (t : Token)
    (ts : List Token) :
    (do if ← acceptPunct c then found else other : TokenParser α) (t :: ts)
      = if t.isPunct c then found ts else other (t :: ts) := by
  rw [bind_apply, show acceptPunct c (t :: ts)
    = if t.isPunct c then .ok (true, ts) else .ok (false, t :: ts) from rfl]
  by_cases hc : t.isPunct c = true
  · rw [if_pos hc, if_pos hc]
    rfl
  · rw [if_neg hc, if_neg hc]
    rfl

/-- The character counts as taken where nothing has to be read behind it. -/
theorem acceptPunct_bind_local {c : Char} {n k : Nat} {p q p' q' : TokenParser α}
    (hfound : Local g (N - 1) (M - 1) (n - 1) k p q) (hother : Local g N M n k p' q')
    (hk : 1 ≤ n + k) :
    Local g N M n k (do if ← acceptPunct c then p else p')
      (do if ← acceptPunct c then q else q') where
  taken := by
    intro ts a rest hts h
    cases ts with
    | nil => exact hother.taken hts h
    | cons t ts =>
      rw [acceptPunct_bind_cons] at h
      split at h
      · rw [List.length_cons] at hts
        obtain ⟨front, rfl, hn⟩ := hfound.taken (by omega) h
        exact ⟨t :: front, rfl, by rw [List.length_cons]; omega⟩
      · exact hother.taken hts h
  ok := by
    intro front rest rest' a hN hM halike h
    rcases front with _ | ⟨t, front⟩
    · -- nothing is taken, so that the next token is looked at
      rcases rest with _ | ⟨t, rest⟩
      · have hn := hother.eq_zero hN h
        rw [halike.eq_nil (by omega)] at hM ⊢
        exact hother.ok hN hM (.refl k []) (List.nil_append [] ▸ h)
      · rw [List.nil_append, acceptPunct_bind_cons] at h
        split at h
        · have hle := hfound.length_le (by rw [List.nil_append, List.length_cons] at hN; omega) h
          rw [List.length_cons] at hle
          omega
        · rename_i hnext
          have hn := hother.eq_zero hN h
          obtain ⟨t', rest', rfl, hkind⟩ := halike.exists_cons (by omega)
          have hnext' : ¬t'.isPunct c = true := by rwa [Token.isPunct, hkind]
          rw [moved_nil, List.nil_append, acceptPunct_bind_cons, if_neg hnext']
          exact hother.ok hN hM halike (List.nil_append (t :: rest) ▸ h)
    · rw [List.cons_append, acceptPunct_bind_cons] at h
      rw [moved_cons, List.cons_append, acceptPunct_bind_cons, isPunct_relocate]
      split at h
      · rename_i hnext
        rw [List.cons_append, List.length_cons] at hN hM
        rw [if_pos hnext]
        exact hfound.ok (by omega) (by omega) halike h
      · rename_i hnext
        rw [if_neg hnext]
        rw [← List.cons_append] at h
        exact hother.ok hN hM halike h
  error := by
    intro ts e hN hM h
    cases ts with
    | nil => exact hother.error hN hM h
    | cons t ts =>
      rw [acceptPunct_bind_cons] at h
      rw [moved_cons, acceptPunct_bind_cons, isPunct_relocate]
      split at h
      · rename_i hnext
        rw [List.length_cons] at hN hM
        rw [if_pos hnext]
        exact hfound.error (by omega) (by omega) h
      · rename_i hnext
        rw [if_neg hnext]
        exact hother.error hN hM h

/-! ## Lists and groups -/

theorem separated_local {p q : TokenParser α} {n k : Nat} (h : Local g N M n k p q)
    (hk : 1 ≤ k) : Local g N M n k (separated p) (separated q) := by
  have hitem : Local g N M 0 k (commaItem p) (commaItem q) := by
    refine (acceptPunct_local ',').bind (m := 0) (by omega) fun isMore => ?_
    exact Local.ite (fun _ => ((h.shorten (by omega)).map some).mono (by omega)) fun _ =>
      Local.pure _
  refine h.bind (m := 0) (by omega) fun first => ?_
  exact (hitem.shorten (by omega)).many.bind (by omega) fun others => Local.pure _

/-- What `close` leaves of the tokens. At least `taken` tokens in front of it are taken, and anything
    may follow them, at whatever places they stand; an error moves with the tokens. -/
def Closes (g : Position → Position) (taken : Nat)
    (close : List Token → Except ParseError (List Token)) (ts : List Token) : Prop :=
  match close ts with
  | .ok rest => ∃ front, ts = front ++ rest ∧ taken ≤ front.length ∧
      ∀ rest', close (moved g front ++ rest') = .ok rest'
  | .error e => close (moved g ts) = .error (e.relocate g)

theorem Closes.cons {n : Nat} {close close' : List Token → Except ParseError (List Token)}
    {t : Token} {ts : List Token} (h : Closes g n close' ts) (ht : close (t :: ts) = close' ts)
    (hmoved : ∀ us, close (t.relocate g :: us) = close' us) : Closes g n close (t :: ts) := by
  unfold Closes at h ⊢
  rw [ht]
  split at h
  · rename_i rest hclose
    obtain ⟨front, rfl, hn, hmore⟩ := h
    refine ⟨t :: front, rfl, Nat.le_succ_of_le hn, fun rest' => ?_⟩
    rw [moved_cons, List.cons_append, hmoved, hmore]
  · rw [moved_cons, hmoved]
    exact h

theorem local_of_closes {n : Nat} {close : List Token → Except ParseError (List Token)}
    (h : ∀ ts, Closes g n close ts) :
    Local g N M n 0 (fun ts => (close ts).map fun rest => ((), rest))
      (fun ts => (close ts).map fun rest => ((), rest)) := by
  have hok : ∀ {ts a rest}, (close ts).map (fun rest => ((), rest)) = .ok (a, rest) →
      close ts = .ok rest := by
    intro ts a rest hmap
    obtain ⟨rest', hclose, hpair⟩ := exists_of_map_eq_ok hmap
    rw [hclose, (Prod.mk.inj hpair).2]
  constructor
  · intro ts a rest _ hmap
    have hcloses := h ts
    rw [Closes, hok hmap] at hcloses
    obtain ⟨front, hfront, hn, -⟩ := hcloses
    exact ⟨front, hfront, hn⟩
  · intro front rest rest' a _ _ _ hmap
    have hcloses := h (front ++ rest)
    rw [Closes, hok hmap] at hcloses
    obtain ⟨front', hfront, -, hmore⟩ := hcloses
    rw [List.append_cancel_right hfront, hmore]
    rfl
  · intro ts e _ _ hmap
    have hcloses := h ts
    cases hclose : close ts with
    | ok rest =>
      rw [hclose] at hmap
      exact absurd hmap (by simp [Except.map])
    | error e' =>
      rw [hclose] at hmap
      rw [Closes, hclose] at hcloses
      obtain rfl := Except.error.inj hmap
      rw [hcloses]
      rfl

/-- Closing a group depends on the brackets alone. -/
theorem closes_closeGroup (opening closing : Char) (depth : Nat) (ts : List Token) :
    Closes g 0 (closeGroup opening closing depth) ts := by
  fun_induction closeGroup opening closing depth ts with
  | case1 ts =>
    rw [Closes, closeGroup]
    refine ⟨[], rfl, Nat.le_refl _, fun rest' => ?_⟩
    rw [moved_nil, List.nil_append, closeGroup]
  | case2 depth => rfl
  | case3 depth t ts ht ih =>
    refine ih.cons (by rw [closeGroup, if_pos ht]) fun us => ?_
    rw [closeGroup, isPunct_relocate, if_pos ht]
  | case4 depth t ts hopening ht ih =>
    refine ih.cons (by rw [closeGroup, if_neg hopening, if_pos ht]) fun us => ?_
    rw [closeGroup, isPunct_relocate, isPunct_relocate, if_neg hopening, if_pos ht]
  | case5 depth t ts hopening hclosing ih =>
    refine ih.cons (by rw [closeGroup, if_neg hopening, if_neg hclosing]) fun us => ?_
    rw [closeGroup, isPunct_relocate, isPunct_relocate, if_neg hopening, if_neg hclosing]

theorem skipGroup_local (opening closing : Char) :
    Local g N M 1 0 (skipGroup opening closing) (skipGroup opening closing) :=
  (expectPunct_local opening).bind (by omega) fun _ =>
    local_of_closes (n := 0) (closes_closeGroup opening closing 1)

/-- The end of a statement depends on brackets and semicolons alone. The semicolon is taken. -/
theorem closes_closeStatement (depth : Nat) (ts : List Token) :
    Closes g 1 (closeStatement depth) ts := by
  fun_induction closeStatement depth ts with
  | case1 depth => rfl
  | case2 depth t ts hopens ih =>
    refine ih.cons (by rw [closeStatement, if_pos hopens]) fun us => ?_
    rw [closeStatement, brackets_relocate.1, if_pos hopens]
  | case3 depth t ts hopens hcloses ih =>
    refine ih.cons (by rw [closeStatement, if_neg hopens, if_pos hcloses]) fun us => ?_
    rw [closeStatement, brackets_relocate.1, brackets_relocate.2, if_neg hopens, if_pos hcloses]
  | case4 depth t ts hopens hcloses hend =>
    rw [Closes, closeStatement, if_neg hopens, if_neg hcloses, if_pos hend]
    refine ⟨[t], rfl, Nat.le_refl _, fun rest' => ?_⟩
    rw [moved_cons, List.cons_append, closeStatement, brackets_relocate.1, brackets_relocate.2,
      isPunct_relocate, if_neg hopens, if_neg hcloses, if_pos hend]
    rfl
  | case5 depth t ts hopens hcloses hend ih =>
    refine ih.cons (by rw [closeStatement, if_neg hopens, if_neg hcloses, if_neg hend])
      fun us => ?_
    rw [closeStatement, brackets_relocate.1, brackets_relocate.2, isPunct_relocate,
      if_neg hopens, if_neg hcloses, if_neg hend]

theorem skipStatement_local : Local g N M 1 0 skipStatement skipStatement :=
  local_of_closes (closes_closeStatement 0)

end TokenParser

end IdlBind
