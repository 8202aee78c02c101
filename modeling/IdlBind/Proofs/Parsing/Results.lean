import IdlBind.Proofs.Parsing.Basic
import IdlBind.Proofs.Token.Identifiers
import IdlBind.Token.Parser

set_option autoImplicit false

/-! # What parsers give

What holds of everything that a parser over the tokens of a text may give. The names in a result are
identifiers because the tokens are lexical, and parsers leave no tokens but some of those they were
given. The property is closed under everything parsers are composed with. -/

namespace IdlBind.TokenParser

open IdlBind.Parser

variable {α β : Type}

/-- On lexical tokens, `p` gives results of which `P` holds, and leaves lexical tokens. -/
structure Yields (p : TokenParser α) (P : α → Prop) : Prop where
  result : ∀ {ts : List Token} {a : α} {rest : List Token}, (∀ t ∈ ts, t.IsLexical) →
    p ts = .ok (a, rest) → P a ∧ ∀ t ∈ rest, t.IsLexical

/-- On lexical tokens, `p` leaves lexical tokens. -/
abbrev KeepsLexical (p : TokenParser α) : Prop := Yields p fun _ => True

namespace Yields

variable {p : TokenParser α} {P : α → Prop} {R : β → Prop}

theorem mono {P' : α → Prop} (h : Yields p P) (hP : ∀ a, P a → P' a) : Yields p P' := by
  refine ⟨fun hts hp => ?_⟩
  obtain ⟨ha, hrest⟩ := h.result hts hp
  exact ⟨hP _ ha, hrest⟩

theorem keeps (h : Yields p P) : KeepsLexical p := h.mono fun _ _ => trivial

theorem pure {a : α} (ha : P a) : Yields (pure a) P := by
  refine ⟨fun hts hp => ?_⟩
  obtain ⟨rfl, rfl⟩ := Prod.mk.inj (Except.ok.inj hp)
  exact ⟨ha, hts⟩

theorem bind {f : α → TokenParser β} (h : Yields p P) (hf : ∀ a, P a → Yields (f a) R) :
    Yields (p >>= f) R := by
  refine ⟨fun hts hp => ?_⟩
  obtain ⟨a, mid, hpa, hfa⟩ := bind_eq_ok_iff.1 hp
  obtain ⟨ha, hmid⟩ := h.result hts hpa
  exact (hf a ha).result hmid hfa

theorem map {f : α → β} (h : Yields p P) (hf : ∀ a, P a → R (f a)) : Yields (f <$> p) R := by
  rw [map_eq_pure_bind]
  exact h.bind fun a ha => Yields.pure (hf a ha)

theorem ite {c : Prop} [Decidable c] {q : TokenParser α} (hp : c → Yields p P)
    (hq : ¬c → Yields q P) : Yields (if c then p else q) P := by
  by_cases hc : c
  · rw [if_pos hc]
    exact hp hc
  · rw [if_neg hc]
    exact hq hc

/-- A repetition yields what its item does, also in front of an error. -/
theorem collect {item : TokenParser (Option α)} (h : Yields item fun r => ∀ a ∈ r, P a)
    {ts : List Token} (hts : ∀ t ∈ ts, t.IsLexical) :
    (∀ a ∈ (collect item ts).1, P a) ∧
      ∀ rest, (collect item ts).2 = .ok rest → ∀ t ∈ rest, t.IsLexical := by
  fun_induction Parser.collect item ts with
  | case1 => exact ⟨by simp, by simp⟩
  | case2 ts rest hitem =>
    refine ⟨by simp, fun rest' hrest => ?_⟩
    obtain rfl := Except.ok.inj hrest
    exact (h.result hts hitem).2
  | case3 ts a mid hitem hlt found outcome hmore ih =>
    obtain ⟨ha, hmid⟩ := h.result hts hitem
    rw [hmore] at ih
    obtain ⟨hfound, hrest⟩ := ih hmid
    exact ⟨List.forall_mem_cons.2 ⟨ha a rfl, hfound⟩, hrest⟩
  | case4 ts a rest hitem hlt =>
    obtain ⟨ha, hmid⟩ := h.result hts hitem
    refine ⟨List.forall_mem_singleton.2 (ha a rfl), fun rest' hrest => ?_⟩
    obtain rfl := Except.ok.inj hrest
    exact hmid

theorem many {item : TokenParser (Option α)} (h : Yields item fun r => ∀ a ∈ r, P a) :
    Yields (many item) fun as => ∀ a ∈ as, P a := by
  refine ⟨fun {ts as rest} hts hmany => ?_⟩
  obtain ⟨has, hrest⟩ := h.collect hts
  rw [many_eq_ok_iff.1 hmany] at has hrest
  exact ⟨has, hrest rest rfl⟩

theorem many_keeps {item : TokenParser (Option α)} (h : KeepsLexical item) :
    KeepsLexical (Parser.many item) :=
  (many (P := fun _ => True) (h.mono fun _ _ _ _ => trivial)).keeps

/-- What the description of a parser in terms of itself yields, provided that the parser within it
    does, the parser yields. -/
theorem recursive {stuck : ParseError} {body : TokenParser α → TokenParser α}
    (h : ∀ {q}, Yields q P → Yields (body q) P) : Yields (Parser.recursive stuck body) P := by
  refine ⟨fun {ts a rest} hts hp => ?_⟩
  -- within the description, the parser is used on fewer tokens
  induction hn : ts.length using Nat.strongRecOn generalizing ts a rest with
  | ind n ih =>
    rw [recursive_apply] at hp
    refine (h ⟨fun {mid b rest'} hmid hq => ?_⟩).result hts hp
    by_cases hlt : mid.length < ts.length
    · rw [guarded_of_lt hlt] at hq
      exact ih mid.length (hn ▸ hlt) hmid hq rfl
    · rw [guarded, if_neg hlt] at hq
      exact absurd hq (by simp)

/-- A parser that leaves only tokens that it was given. -/
theorem of_mem (h : ∀ {ts a rest}, p ts = .ok (a, rest) → ∀ t ∈ rest, t ∈ ts) :
    KeepsLexical p := ⟨fun hts hp => ⟨trivial, fun t ht => hts t (h hp t ht)⟩⟩

end Yields

/-! ## Looking ahead -/

theorem unexpected_yields (expected : Expectation) (P : α → Prop) :
    Yields (unexpected expected) P := ⟨fun _ h => absurd h (by simp [unexpected])⟩

theorem look_keeps (f : List Token → α) : KeepsLexical fun ts => .ok (f ts, ts) := by
  refine Yields.of_mem fun {ts a rest} h t ht => ?_
  obtain ⟨-, rfl⟩ := Prod.mk.inj (Except.ok.inj h)
  exact ht

/-! ## Taking tokens -/

theorem skip_keeps : KeepsLexical skip := by
  refine Yields.of_mem fun {ts a rest} h t ht => ?_
  obtain ⟨-, rfl⟩ := Prod.mk.inj (Except.ok.inj h)
  exact List.mem_of_mem_tail ht

theorem acceptPunct_keeps (c : Char) : KeepsLexical (acceptPunct c) := by
  refine Yields.of_mem fun {ts a rest} h t ht => ?_
  cases ts with
  | nil =>
    obtain ⟨-, rfl⟩ := Prod.mk.inj (Except.ok.inj h)
    exact ht
  | cons u us =>
    simp only [acceptPunct] at h
    split at h <;> obtain ⟨-, rfl⟩ := Prod.mk.inj (Except.ok.inj h)
    · exact List.mem_cons_of_mem u ht
    · exact ht

theorem acceptIdent_keeps (name : String) : KeepsLexical (acceptIdent name) := by
  refine Yields.of_mem fun {ts a rest} h t ht => ?_
  cases ts with
  | nil =>
    obtain ⟨-, rfl⟩ := Prod.mk.inj (Except.ok.inj h)
    exact ht
  | cons u us =>
    simp only [acceptIdent] at h
    split at h <;> obtain ⟨-, rfl⟩ := Prod.mk.inj (Except.ok.inj h)
    · exact List.mem_cons_of_mem u ht
    · exact ht

theorem expectPunct_keeps (c : Char) : KeepsLexical (expectPunct c) := by
  refine (acceptPunct_keeps c).bind fun found _ => ?_
  exact Yields.ite (fun _ => Yields.pure trivial) fun _ => unexpected_yields _ _

theorem expectIdent_yields : Yields expectIdent fun name => isIdentifier name = true := by
  refine ⟨fun hts h => ?_⟩
  unfold expectIdent at h
  split at h
  · obtain ⟨rfl, rfl⟩ := Prod.mk.inj (Except.ok.inj h)
    obtain ⟨hname, hrest⟩ := List.forall_mem_cons.1 hts
    exact ⟨hname _ rfl, hrest⟩
  · exact absurd h (by simp)

/-! ## Lists and groups -/

theorem separated_yields {item : TokenParser α} {P : α → Prop} (h : Yields item P) :
    Yields (separated item) fun items => P items.1 ∧ ∀ a ∈ items.2, P a := by
  have hitem : Yields (commaItem item) fun r => ∀ a ∈ r, P a := by
    refine (acceptPunct_keeps ',').bind fun isComma _ => ?_
    refine Yields.ite (fun _ => h.map fun a ha b hb => ?_) fun _ => Yields.pure (by simp)
    rwa [← Option.some.inj hb]
  exact h.bind fun first hfirst => hitem.many.bind fun others hothers =>
    Yields.pure ⟨hfirst, hothers⟩

theorem closeGroup_subset {opening closing : Char} {depth : Nat} {ts rest : List Token}
    (h : closeGroup opening closing depth ts = .ok rest) : rest ⊆ ts := by
  fun_induction closeGroup opening closing depth ts with
  | case1 ts => rw [Except.ok.inj h]; exact List.Subset.refl _
  | case2 => exact absurd h (by simp)
  | case3 _ t ts _ ih => exact List.subset_cons_of_subset t (ih h)
  | case4 _ t ts _ _ ih => exact List.subset_cons_of_subset t (ih h)
  | case5 _ t ts _ _ ih => exact List.subset_cons_of_subset t (ih h)

theorem skipGroup_keeps (opening closing : Char) : KeepsLexical (skipGroup opening closing) := by
  refine (expectPunct_keeps opening).bind fun _ _ => Yields.of_mem fun {ts a rest} h => ?_
  obtain ⟨rest', hclose, hpair⟩ := exists_of_map_eq_ok h
  obtain rfl := (Prod.mk.inj hpair).2
  exact closeGroup_subset hclose

theorem closeStatement_subset {depth : Nat} {ts rest : List Token}
    (h : closeStatement depth ts = .ok rest) : rest ⊆ ts := by
  fun_induction closeStatement depth ts with
  | case1 => exact absurd h (by simp)
  | case2 _ t ts _ ih => exact List.subset_cons_of_subset t (ih h)
  | case3 _ t ts _ _ ih => exact List.subset_cons_of_subset t (ih h)
  | case4 _ t ts => rw [Except.ok.inj h]; exact List.subset_cons_self t rest
  | case5 _ t ts _ _ _ ih => exact List.subset_cons_of_subset t (ih h)

theorem skipStatement_keeps : KeepsLexical skipStatement := by
  refine Yields.of_mem fun {ts a rest} h => ?_
  obtain ⟨rest', hclose, hpair⟩ := exists_of_map_eq_ok h
  obtain rfl := (Prod.mk.inj hpair).2
  exact closeStatement_subset hclose

end IdlBind.TokenParser
