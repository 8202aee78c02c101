import IdlBind.Proofs.Parsing.Local

set_option autoImplicit false

/-! # Parsers on printed tokens

What the steps of the readers do with a next token that is known. -/

namespace IdlBind

/-- Tokens of some kinds; where they stand does not matter to a local parser. -/
def place (kinds : List TokenKind) : List Token := kinds.map (⟨·, .start⟩)

@[simp] theorem place_nil : place [] = [] := rfl

@[simp] theorem place_cons (kind : TokenKind) (kinds : List TokenKind) :
    place (kind :: kinds) = ⟨kind, .start⟩ :: place kinds := rfl

@[simp] theorem place_append (a b : List TokenKind) : place (a ++ b) = place a ++ place b :=
  List.map_append

theorem kinds_place (kinds : List TokenKind) : (place kinds).map (·.kind) = kinds := by
  rw [place, List.map_map]
  exact List.map_id kinds

theorem place_flatMap {α : Type} (l : List α) (f : α → List TokenKind) :
    place (l.flatMap f) = l.flatMap fun a => place (f a) := List.map_flatMap

theorem place_ne_nil {kinds : List TokenKind} (h : kinds ≠ []) : place kinds ≠ [] := by
  simpa [place] using h

namespace TokenParser

variable {α : Type} {rest : List Token}

/-- Is there no next token of this kind? -/
def Avoids (kind : TokenKind) (ts : List Token) : Prop := ts.head?.any (·.kind == kind) = false

theorem avoids_cons {kind : TokenKind} {t : Token} (h : t.kind ≠ kind) (rest : List Token) :
    Avoids kind (t :: rest) := by
  simpa [Avoids] using h

theorem avoids_congr {kind : TokenKind} {ts us : List Token} (h : Alike 1 ts us)
    (hts : Avoids kind ts) : Avoids kind us := by
  have hhead := h.head?_any (Nat.le_refl 1) (· == kind)
  exact hhead.symm.trans hts

theorem acceptPunct_self (c : Char) (p : Position) :
    acceptPunct c (⟨.punct c, p⟩ :: rest) = .ok (true, rest) := by
  show (if (TokenKind.punct c == .punct c) = true then _ else _) = _
  rw [if_pos (by simp)]

theorem acceptPunct_of_avoids {c : Char} {ts : List Token} (h : Avoids (.punct c) ts) :
    acceptPunct c ts = .ok (false, ts) := by
  cases ts with
  | nil => rfl
  | cons t rest =>
    show (if (t.kind == .punct c) = true then _ else _) = _
    rw [if_neg (by simpa [Avoids] using h)]

theorem checkPunct_self (c : Char) (p : Position) :
    checkPunct c (⟨.punct c, p⟩ :: rest) = .ok (true, ⟨.punct c, p⟩ :: rest) := by
  show Except.ok ((TokenKind.punct c == .punct c), _) = _
  rw [beq_self_eq_true]

theorem checkPunct_of_avoids {c : Char} {ts : List Token} (h : Avoids (.punct c) ts) :
    checkPunct c ts = .ok (false, ts) := by
  show Except.ok (ts.head?.any (·.kind == .punct c), ts) = _
  rw [h]

theorem checkSecondPunct_of_avoids {c : Char} {ts : List Token} (h : Avoids (.punct c) ts)
    (t : Token) : checkSecondPunct c (t :: ts) = .ok (false, t :: ts) := by
  show Except.ok (ts.head?.any (·.kind == .punct c), t :: ts) = _
  rw [h]

theorem expectPunct_self (c : Char) (p : Position) :
    expectPunct c (⟨.punct c, p⟩ :: rest) = .ok ((), rest) := by
  unfold expectPunct
  rw [Parser.bind_apply_of_ok (acceptPunct_self c p)]
  rfl

theorem acceptIdent_self (name : String) (p : Position) :
    acceptIdent name (⟨.ident name, p⟩ :: rest) = .ok (true, rest) := by
  show (if (TokenKind.ident name == .ident name) = true then _ else _) = _
  rw [if_pos (by simp)]

theorem acceptIdent_of_avoids {name : String} {ts : List Token} (h : Avoids (.ident name) ts) :
    acceptIdent name ts = .ok (false, ts) := by
  cases ts with
  | nil => rfl
  | cons t rest =>
    show (if (t.kind == .ident name) = true then _ else _) = _
    rw [if_neg (by simpa [Avoids] using h)]

theorem acceptIdent_eq_ok_iff {name : String} {ts rest : List Token} {found : Bool} :
    acceptIdent name ts = .ok (found, rest) ↔
      (found = true ∧ ∃ p, ts = ⟨.ident name, p⟩ :: rest) ∨
        (found = false ∧ rest = ts ∧ Avoids (.ident name) ts) := by
  cases ts with
  | nil => simp [acceptIdent, Avoids]
  | cons t ts =>
    obtain ⟨kind, p⟩ := t
    by_cases hkind : kind = .ident name
    · subst hkind
      rw [acceptIdent_self]
      simp [Avoids, eq_comm]
    · have havoids : Avoids (.ident name) (⟨kind, p⟩ :: ts) := avoids_cons hkind ts
      rw [acceptIdent_of_avoids havoids]
      simp [havoids, hkind, eq_comm]

theorem checkIdent_of_avoids {name : String} {ts : List Token} (h : Avoids (.ident name) ts) :
    checkIdent name ts = .ok (false, ts) := by
  show Except.ok (ts.head?.any (·.kind == .ident name), ts) = _
  rw [h]

theorem expectIdent_ident (name : String) (p : Position) :
    expectIdent (⟨.ident name, p⟩ :: rest) = .ok (name, rest) := rfl

/-! ## Lists -/

/-- Items that may give nothing are read back if each of them is, whatever follows it. -/
theorem many_print_some {item : TokenParser (Option (Option α))} {print : α → List TokenKind}
    {ts rest : List Token} (hend : item ts = .ok (none, rest)) {as : List α}
    (hitem : ∀ a ∈ as, ∀ us, item (place (print a) ++ us) = .ok (some (some a), us))
    (hprint : ∀ a ∈ as, print a ≠ []) :
    Parser.many item (place (as.flatMap print) ++ ts) = .ok (as.map some, rest) := by
  have hplace : place (as.flatMap print)
      = (as.map some).flatMap fun a? => place (a?.toList.flatMap print) := by
    rw [place_flatMap, List.flatMap_map]
    simp only [Option.toList_some, List.flatMap_singleton]
  rw [hplace]
  refine Parser.many_print (P := fun _ => True) hend trivial (fun _ _ => trivial) ?_ ?_
  · intro a? ha? us _
    obtain ⟨a, ha, rfl⟩ := List.mem_map.1 ha?
    rw [Option.toList_some, List.flatMap_singleton]
    exact hitem a ha us
  · intro a? ha?
    obtain ⟨a, ha, rfl⟩ := List.mem_map.1 ha?
    rw [Option.toList_some, List.flatMap_singleton]
    exact place_ne_nil (hprint a ha)

/-- Items with commas between them are read back if each of them is, in front of whatever satisfies
    `P`. -/
theorem separated_print {item : TokenParser α} {print : α → List TokenKind}
    {P : List Token → Prop} {first : α} {others : List α}
    (hitem : ∀ a ∈ first :: others, ∀ ts, P ts → item (place (print a) ++ ts) = .ok (a, ts))
    (hcomma : ∀ ts, P (⟨.punct ',', .start⟩ :: ts)) (hrest : P rest)
    (hend : Avoids (.punct ',') rest) :
    separated item (place (print first)
        ++ place (others.flatMap fun a => .punct ',' :: print a) ++ rest)
      = .ok ((first, others), rest) := by
  have hothers : Parser.many (commaItem item)
      (others.flatMap (fun a => place (.punct ',' :: print a)) ++ rest) = .ok (others, rest) := by
    refine Parser.many_print (P := P) ?_ hrest (fun a ts => hcomma _) ?_ ?_
    · unfold commaItem
      rw [Parser.bind_apply_of_ok (acceptPunct_of_avoids hend)]
      rfl
    · intro a ha ts hts
      have hread := hitem a (List.mem_cons_of_mem _ ha) ts hts
      unfold commaItem
      rw [place_cons, List.cons_append, Parser.bind_apply_of_ok (acceptPunct_self ',' _),
        if_pos rfl, map_eq_pure_bind, Parser.bind_apply_of_ok hread]
      rfl
    · intro a _
      simp
  -- behind the first item stands a comma, or what follows the list
  have hnext : P (others.flatMap (fun a => place (.punct ',' :: print a)) ++ rest) := by
    cases others with
    | nil => exact hrest
    | cons a others => exact hcomma _
  unfold separated
  rw [place_flatMap, List.append_assoc,
    Parser.bind_apply_of_ok (hitem first List.mem_cons_self _ hnext),
    Parser.bind_apply_of_ok hothers]
  rfl

end TokenParser

end IdlBind
