import IdlBind.Proofs.Parsing.Printed

set_option autoImplicit false

/-! # Grammars over tokens

A grammar relates kinds of tokens to what they derive. A reader recognizes it if it takes tokens
that derive what it gives, and gives what is derived in front of whatever may follow. Then its
repetition does the same with sequences (`Recognizes.sound_many`, `Recognizes.complete_many`). -/

namespace IdlBind

variable {α β : Type}

/-! ## Sequences -/

/-- Tokens that derive one thing after the other. -/
inductive IsSequence (G : List TokenKind → β → Prop) : List TokenKind → List β → Prop
  | nil : IsSequence G [] []
  | cons {front rest : List TokenKind} {b : β} {bs : List β} : G front b → IsSequence G rest bs →
      IsSequence G (front ++ rest) (b :: bs)

namespace IsSequence

variable {G H : List TokenKind → β → Prop} {kinds : List TokenKind}

theorem append {as bs : List β} {kinds' : List TokenKind} (h : IsSequence G kinds as)
    (h' : IsSequence G kinds' bs) : IsSequence G (kinds ++ kinds') (as ++ bs) := by
  induction h with
  | nil => exact h'
  | cons hfirst _ ih =>
    rw [List.append_assoc]
    exact .cons hfirst ih

theorem exists_append {as bs : List β} (h : IsSequence G kinds (as ++ bs)) :
    ∃ front rest, kinds = front ++ rest ∧ IsSequence G front as ∧ IsSequence G rest bs := by
  induction as generalizing kinds with
  | nil => exact ⟨[], kinds, rfl, .nil, h⟩
  | cons a as ih =>
    cases h with
    | @cons first _ _ _ hfirst hmore =>
      obtain ⟨front, rest, rfl, hfront, hrest⟩ := ih hmore
      exact ⟨first ++ front, rest, by rw [List.append_assoc], .cons hfirst hfront, hrest⟩

theorem mono {bs : List β} (h : IsSequence G kinds bs)
    (hGH : ∀ front, ∀ b ∈ bs, G front b → H front b) : IsSequence H kinds bs := by
  induction h with
  | nil => exact .nil
  | cons hfirst _ ih =>
    obtain ⟨hfirst', hrest⟩ := List.forall_mem_cons.1 fun b hb front => hGH front b hb
    exact .cons (hfirst' _ hfirst) (ih fun front b hb => hrest b hb front)

end IsSequence

/-! ## Kinds of tokens -/

theorem map_kind_eq_cons {ts : List Token} {kind : TokenKind} {kinds : List TokenKind}
    (h : ts.map (·.kind) = kind :: kinds) :
    ∃ p rest, ts = ⟨kind, p⟩ :: rest ∧ rest.map (·.kind) = kinds := by
  obtain ⟨⟨_, p⟩, rest, rfl, rfl, hrest⟩ := List.map_eq_cons_iff.1 h
  exact ⟨p, rest, rfl, hrest⟩

theorem map_kind_eq_singleton {ts : List Token} {kind : TokenKind}
    (h : ts.map (·.kind) = [kind]) : ∃ p, ts = [⟨kind, p⟩] := by
  obtain ⟨p, rest, rfl, hrest⟩ := map_kind_eq_cons h
  exact ⟨p, by rw [List.map_eq_nil_iff.1 hrest]⟩

namespace TokenParser

/-! ## Steps -/

theorem expectIdent_eq_ok_iff {ts rest : List Token} {name : String} :
    expectIdent ts = .ok (name, rest) ↔ ∃ p, ts = ⟨.ident name, p⟩ :: rest := by
  unfold expectIdent
  split
  · simp
  · simp_all

theorem expectString_eq_ok_iff {ts rest : List Token} {text : String} :
    expectString ts = .ok (text, rest) ↔ ∃ p, ts = ⟨.string text, p⟩ :: rest := by
  unfold expectString
  split
  · simp
  · simp_all

theorem acceptPunct_eq_ok_iff {c : Char} {ts rest : List Token} {found : Bool} :
    acceptPunct c ts = .ok (found, rest) ↔
      (found = true ∧ ∃ p, ts = ⟨.punct c, p⟩ :: rest) ∨
        (found = false ∧ rest = ts ∧ Avoids (.punct c) ts) := by
  cases ts with
  | nil => simp [acceptPunct, Avoids]
  | cons t ts =>
    obtain ⟨kind, p⟩ := t
    by_cases hkind : kind = .punct c
    · subst hkind
      rw [acceptPunct_self]
      simp [Avoids, eq_comm]
    · have havoids : Avoids (.punct c) (⟨kind, p⟩ :: ts) := avoids_cons hkind ts
      rw [acceptPunct_of_avoids havoids]
      simp [havoids, hkind, eq_comm]

theorem expectPunct_eq_ok_iff {c : Char} {ts rest : List Token} :
    expectPunct c ts = .ok ((), rest) ↔ ∃ p, ts = ⟨.punct c, p⟩ :: rest := by
  unfold expectPunct
  rw [Parser.bind_eq_ok_iff]
  constructor
  · rintro ⟨found, mid, haccept, h⟩
    rcases acceptPunct_eq_ok_iff.1 haccept with ⟨rfl, hts⟩ | ⟨rfl, rfl, -⟩
    · obtain rfl : mid = rest := by simpa using h
      exact hts
    · exact absurd h (by simp [unexpected])
  · intro h
    exact ⟨true, rest, acceptPunct_eq_ok_iff.2 (.inl ⟨rfl, h⟩), rfl⟩

/-- In front of a further item stands a comma. -/
theorem commaItem_eq_ok_some {item : TokenParser α} {ts rest : List Token} {a : α}
    (h : commaItem item ts = .ok (some a, rest)) :
    ∃ p us, ts = ⟨.punct ',', p⟩ :: us ∧ item us = .ok (a, rest) := by
  unfold commaItem at h
  obtain ⟨isMore, us, haccept, hitem⟩ := Parser.bind_eq_ok_iff.1 h
  rcases acceptPunct_eq_ok_iff.1 haccept with ⟨hmore, p, hts⟩ | ⟨hmore, -, -⟩
  · rw [hmore, if_pos rfl] at hitem
    obtain ⟨b, hb, hread⟩ := Parser.map_eq_ok_iff.1 hitem
    rw [Option.some.inj hb] at hread
    exact ⟨p, us, hts, hread⟩
  · rw [hmore] at hitem
    exact absurd hitem (by simp)

/-! ## Readers of a grammar -/

/-- What the reader `item` of items gives, as `view` shows it, is what `G` derives from the tokens
    that it takes, provided that what follows satisfies `Ends`. -/
structure Recognizes (G : List TokenKind → β → Prop) (Ends : List Token → Prop) (view : α → β)
    (item : TokenParser (Option α)) : Prop where
  ne_nil : ∀ {kinds b}, G kinds b → kinds ≠ []
  ends : ∀ {front b rest}, G (front.map (·.kind)) b → Ends (front ++ rest)
  sound : ∀ {ts a rest}, item ts = .ok (some a, rest) →
    ∃ front, ts = front ++ rest ∧ G (front.map (·.kind)) (view a)
  complete : ∀ {front b rest}, G (front.map (·.kind)) b → Ends rest →
    ∃ a, view a = b ∧ item (front ++ rest) = .ok (some a, rest)

namespace Recognizes

variable {G : List TokenKind → β → Prop} {Ends : List Token → Prop} {view : α → β}
  {item : TokenParser (Option α)}

theorem length_pos (h : Recognizes G Ends view item) {front : List Token} {b : β}
    (hfront : G (front.map (·.kind)) b) : 0 < front.length := by
  simpa [List.length_pos_iff] using h.ne_nil hfront

theorem length_lt (h : Recognizes G Ends view item) {ts rest : List Token} {a : α}
    (hitem : item ts = .ok (some a, rest)) : rest.length < ts.length := by
  obtain ⟨front, rfl, hfront⟩ := h.sound hitem
  have hpos := h.length_pos hfront
  rw [List.length_append]
  omega

/-- What a repetition takes derives what it gives, and it stops where the item gives nothing. -/
theorem sound_many (h : Recognizes G Ends view item) {ts rest : List Token} {as : List α}
    (hmany : Parser.many item ts = .ok (as, rest)) :
    ∃ front stop, ts = front ++ stop ∧ item stop = .ok (none, rest) ∧
      IsSequence G (front.map (·.kind)) (as.map view) := by
  induction as generalizing ts with
  | nil => exact ⟨[], ts, rfl, Parser.item_of_many_eq_nil hmany, .nil⟩
  | cons a as ih =>
    obtain ⟨mid, hitem, hmore⟩ := Parser.exists_of_many_eq_cons h.length_lt hmany
    obtain ⟨first, rfl, hfirst⟩ := h.sound hitem
    obtain ⟨front, stop, rfl, hstop, hfront⟩ := ih hmore
    refine ⟨first ++ front, stop, by rw [List.append_assoc], hstop, ?_⟩
    rw [List.map_append]
    exact .cons hfirst hfront

theorem ends_sequence (h : Recognizes G Ends view item) {front stop : List Token} {bs : List β}
    (hfront : IsSequence G (front.map (·.kind)) bs) (hstop : Ends stop) : Ends (front ++ stop) := by
  generalize hkinds : front.map (·.kind) = kinds at hfront
  cases hfront with
  | nil =>
    obtain rfl := List.map_eq_nil_iff.1 hkinds
    exact hstop
  | cons hfirst _ =>
    obtain ⟨first, more, rfl, rfl, -⟩ := List.map_eq_append_iff.1 hkinds
    rw [List.append_assoc]
    exact h.ends hfirst

/-- A repetition gives what is derived, up to a place where the item gives nothing. -/
theorem complete_many (h : Recognizes G Ends view item) {front stop rest : List Token} {bs : List β}
    (hfront : IsSequence G (front.map (·.kind)) bs) (hstop : item stop = .ok (none, rest))
    (hends : Ends stop) :
    ∃ as, as.map view = bs ∧ Parser.many item (front ++ stop) = .ok (as, rest) := by
  generalize hkinds : front.map (·.kind) = kinds at hfront
  induction hfront generalizing front with
  | nil =>
    obtain rfl := List.map_eq_nil_iff.1 hkinds
    exact ⟨[], rfl, Parser.many_eq_nil hstop⟩
  | cons hfirst hmore ih =>
    obtain ⟨first, more, rfl, rfl, rfl⟩ := List.map_eq_append_iff.1 hkinds
    obtain ⟨as, rfl, hmany⟩ := ih rfl
    obtain ⟨a, rfl, hitem⟩ := h.complete hfirst (h.ends_sequence hmore hends)
    have hpos := h.length_pos hfirst
    refine ⟨a :: as, rfl, ?_⟩
    rw [List.append_assoc]
    exact Parser.many_cons hitem (by simp only [List.length_append]; omega) hmany

end Recognizes

end TokenParser

end IdlBind
