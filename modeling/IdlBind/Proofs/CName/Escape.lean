import IdlBind.CName
import IdlBind.Proofs.Number.Digits
import IdlBind.Proofs.Token.Printed

set_option autoImplicit false

/-! # Escaped names

Escapes of characters are a prefix-free code (`escapeChar_append_inj`), so that an escaped name can
be read back up to an underscore that starts no escape (`escape_append_inj`). The underscores that
join the parts of a symbol are such: no identifier starts with a digit, and an underscore in it
becomes an escape. Symbols of identifiers therefore determine their parts (`symbol_inj`).

Of any names at all, identifiers or not, the escapes are different (`escape_inj`). In none of them
do two underscores meet, since every escape has something else behind its underscores
(`separated_escape`), so that what is put between escaped names can be told from them. -/

namespace IdlBind.CName

/-! ## Hexadecimal digits -/

theorem digitsValue_replicate_zero (k : Nat) (ds : List Char) :
    Number.digitsValue 16 (List.replicate k '0' ++ ds) = Number.digitsValue 16 ds := by
  induction k with
  | zero => rfl
  | succ k ih => exact ih

theorem digitsValue_unitDigits (n : Nat) : Number.digitsValue 16 (unitDigits n) = n := by
  rw [unitDigits, digitsValue_replicate_zero,
    Number.digitsValue_toDigits (by decide) (Nat.le_refl 16)]

/-- The digits of a unit determine it. -/
theorem unitDigits_inj {m n : Nat} (h : unitDigits m = unitDigits n) : m = n := by
  rw [← digitsValue_unitDigits m, h, digitsValue_unitDigits]

theorem length_unitDigits {n : Nat} (h : n < 0x10000) : (unitDigits n).length = 4 := by
  have hle : (Nat.toDigits 16 n).length ≤ 4 :=
    (Nat.length_toDigits_le_iff (by decide) (by decide)).2 h
  simp only [unitDigits, List.length_append, List.length_replicate]
  omega

theorem isAlphanum_of_mem_unitDigits {n : Nat} {c : Char} (h : c ∈ unitDigits n) :
    c.isAlphanum = true := by
  rcases List.mem_append.1 h with h | h
  · rw [(List.mem_replicate.1 h).2]
    decide
  · exact Number.isAlphanum_of_mem_toDigits (by decide) (Nat.le_refl 16) h

/-! ## Units -/

theorem toNat_of_valid (c : Char) :
    c.toNat < 0xd800 ∨ 0xdfff < c.toNat ∧ c.toNat < 0x110000 := c.valid

theorem lt_of_mem_utf16Units {c : Char} {n : Nat} (h : n ∈ utf16Units c) : n < 0x10000 := by
  have hvalid := toNat_of_valid c
  simp only [utf16Units] at h
  split at h
  · rw [List.mem_singleton.1 h]
    assumption
  · simp only [List.mem_cons, List.not_mem_nil, or_false] at h
    omega

/-- The units of characters are a prefix-free code. -/
theorem utf16Units_append_inj {c d : Char} {us vs : List Nat}
    (h : utf16Units c ++ us = utf16Units d ++ vs) : c = d ∧ us = vs := by
  have hc := toNat_of_valid c
  have hd := toNat_of_valid d
  rw [← Char.toNat_inj]
  simp only [utf16Units] at h
  -- a single unit is never in the range of the first units of pairs
  split at h <;> split at h <;>
    simp only [List.cons_append, List.nil_append, List.cons.injEq] at h
  · exact h
  · omega
  · omega
  · exact ⟨by omega, h.2.2⟩

theorem exists_utf16Units_eq (c : Char) : ∃ n ns, utf16Units c = n :: ns := by
  simp only [utf16Units]
  split
  · exact ⟨_, _, rfl⟩
  · exact ⟨_, _, rfl⟩

/-- Of two rows of escaped units in front of what follows them, one starts with the other. -/
theorem exists_of_flatMap_units {us vs : List Nat} (hus : ∀ n ∈ us, n < 0x10000)
    (hvs : ∀ n ∈ vs, n < 0x10000) {x y : List Char}
    (h : us.flatMap (fun n => '_' :: '0' :: unitDigits n) ++ x
      = vs.flatMap (fun n => '_' :: '0' :: unitDigits n) ++ y) :
    ∃ ws, us = vs ++ ws ∧ y = ws.flatMap (fun n => '_' :: '0' :: unitDigits n) ++ x ∨
      vs = us ++ ws ∧ x = ws.flatMap (fun n => '_' :: '0' :: unitDigits n) ++ y := by
  induction us generalizing vs with
  | nil => exact ⟨vs, .inr ⟨rfl, h⟩⟩
  | cons u us ih =>
    cases vs with
    | nil => exact ⟨u :: us, .inl ⟨rfl, h.symm⟩⟩
    | cons v vs =>
      obtain ⟨hu, hus'⟩ := List.forall_mem_cons.1 hus
      obtain ⟨hv, hvs'⟩ := List.forall_mem_cons.1 hvs
      simp only [List.flatMap_cons, List.cons_append, List.append_assoc, List.cons.injEq,
        true_and] at h
      obtain ⟨hdigits, hrest⟩ := List.append_inj h
        ((length_unitDigits hu).trans (length_unitDigits hv).symm)
      obtain rfl := unitDigits_inj hdigits
      obtain ⟨ws, hws⟩ := ih hus' hvs' hrest
      exact ⟨ws, by simpa using hws⟩

/-! ## Escapes of characters -/

theorem ne_underscore_of_isAlphanum {c : Char} (h : c.isAlphanum = true) : c ≠ '_' := by
  rintro rfl
  exact absurd h (by decide)

/-- The three kinds of escapes, with what each starts with. -/
theorem escapeChar_cases (c : Char) :
    (c.isAlphanum = true ∧ escapeChar c = [c]) ∨
      (c = '_' ∧ escapeChar c = ['_', '1']) ∨
      (escapeChar c = (utf16Units c).flatMap (fun unit => '_' :: '0' :: unitDigits unit) ∧
        ∃ cs, escapeChar c = '_' :: '0' :: cs) := by
  by_cases hc : c.isAlphanum = true
  · exact .inl ⟨hc, if_pos hc⟩
  · by_cases hu : c = '_'
    · exact .inr (.inl ⟨hu, by rw [escapeChar, if_neg hc, if_pos hu]⟩)
    · have hother : escapeChar c
          = (utf16Units c).flatMap fun unit => '_' :: '0' :: unitDigits unit := by
        rw [escapeChar, if_neg hc, if_neg hu]
      refine .inr (.inr ⟨hother, ?_⟩)
      rw [hother]
      obtain ⟨n, ns, hunits⟩ := exists_utf16Units_eq c
      exact ⟨_, by rw [hunits, List.flatMap_cons, List.cons_append, List.cons_append]⟩

/-- The escapes of characters are a prefix-free code. -/
theorem escapeChar_append_inj {c d : Char} {x y : List Char}
    (h : escapeChar c ++ x = escapeChar d ++ y) : c = d ∧ x = y := by
  rcases escapeChar_cases c with ⟨hc, hce⟩ | ⟨rfl, hce⟩ | ⟨hce, cs, hcs⟩ <;>
    rcases escapeChar_cases d with ⟨hd, hde⟩ | ⟨rfl, hde⟩ | ⟨hde, ds, hds⟩
  · rw [hce, hde] at h
    simpa using h
  · rw [hce, hde] at h
    exact absurd (List.cons.inj h).1 (ne_underscore_of_isAlphanum hc)
  · rw [hce, hds] at h
    exact absurd (List.cons.inj h).1 (ne_underscore_of_isAlphanum hc)
  · rw [hce, hde] at h
    exact absurd (List.cons.inj h).1.symm (ne_underscore_of_isAlphanum hd)
  · rw [hce] at h
    exact ⟨rfl, List.append_cancel_left h⟩
  · rw [hce, hds] at h
    exact absurd h (by simp)
  · rw [hcs, hde] at h
    exact absurd (List.cons.inj h).1.symm (ne_underscore_of_isAlphanum hd)
  · rw [hcs, hde] at h
    exact absurd h (by simp)
  · rw [hce, hde] at h
    obtain ⟨ws, ⟨hunits, hrest⟩ | ⟨hunits, hrest⟩⟩ := exists_of_flatMap_units
      (fun _ => lt_of_mem_utf16Units) (fun _ => lt_of_mem_utf16Units) h
    · obtain ⟨rfl, rfl⟩ := utf16Units_append_inj ((List.append_nil _).trans hunits)
      exact ⟨rfl, hrest.symm⟩
    · obtain ⟨rfl, rfl⟩ := utf16Units_append_inj ((List.append_nil _).trans hunits)
      exact ⟨rfl, hrest⟩

/-! ## Escaped names -/

/-- A character of a C name. -/
def isNameChar (c : Char) : Bool := c.isAlphanum || c == '_'

theorem isNameChar_of_isAlphanum {c : Char} (h : c.isAlphanum = true) : isNameChar c = true := by
  rw [isNameChar, h, Bool.true_or]

theorem isNameChar_of_mem_escapeChar {c d : Char} (h : d ∈ escapeChar c) :
    isNameChar d = true := by
  rcases escapeChar_cases c with ⟨hc, he⟩ | ⟨rfl, he⟩ | ⟨he, -⟩
  · rw [he, List.mem_singleton] at h
    rw [h]
    exact isNameChar_of_isAlphanum hc
  · rw [he] at h
    exact List.all_eq_true.1 (show ['_', '1'].all isNameChar = true by decide) d h
  · rw [he] at h
    obtain ⟨n, -, hd⟩ := List.mem_flatMap.1 h
    rcases List.mem_cons.1 hd with rfl | hd
    · decide
    · rcases List.mem_cons.1 hd with rfl | hd
      · decide
      · exact isNameChar_of_isAlphanum (isAlphanum_of_mem_unitDigits hd)

theorem toList_escape (name : String) : (escape name).toList = name.toList.flatMap escapeChar :=
  String.toList_ofList

theorem isNameChar_of_mem_escape {name : String} {c : Char} (h : c ∈ (escape name).toList) :
    isNameChar c = true := by
  rw [toList_escape] at h
  obtain ⟨d, -, hd⟩ := List.mem_flatMap.1 h
  exact isNameChar_of_mem_escapeChar hd

/-- What may stand behind an escaped name: nothing, or an underscore that starts no escape. -/
def EndsPart (cs : List Char) : Prop :=
  cs = [] ∨ ∃ c rest, cs = '_' :: c :: rest ∧ c ≠ '0' ∧ c ≠ '1'

theorem not_endsPart_escapeChar (c : Char) (x : List Char) : ¬EndsPart (escapeChar c ++ x) := by
  rintro (h | ⟨d, rest, h, hzero, hone⟩)
  all_goals rcases escapeChar_cases c with ⟨hc, he⟩ | ⟨rfl, he⟩ | ⟨-, cs, he⟩
  all_goals rw [he] at h
  · exact absurd h (by simp)
  · exact absurd h (by simp)
  · exact absurd h (by simp)
  · obtain rfl := (List.cons.inj h).1
    exact absurd hc (by decide)
  · exact hone (List.cons.inj (List.cons.inj h).2).1.symm
  · exact hzero (List.cons.inj (List.cons.inj h).2).1.symm

/-- An escaped name ends where the next part begins. -/
theorem escape_append_inj {a b : String} {x y : List Char} (hx : EndsPart x) (hy : EndsPart y)
    (h : (escape a).toList ++ x = (escape b).toList ++ y) : a = b ∧ x = y := by
  rw [toList_escape, toList_escape] at h
  suffices a.toList = b.toList ∧ x = y from ⟨String.toList_inj.1 this.1, this.2⟩
  generalize a.toList = cs at h
  generalize b.toList = ds at h
  induction cs generalizing ds with
  | nil =>
    cases ds with
    | nil => exact ⟨rfl, h⟩
    | cons d ds =>
      rw [List.flatMap_nil, List.nil_append, List.flatMap_cons, List.append_assoc] at h
      exact absurd (h ▸ hx) (not_endsPart_escapeChar d _)
  | cons c cs ih =>
    cases ds with
    | nil =>
      rw [List.flatMap_nil, List.nil_append, List.flatMap_cons, List.append_assoc] at h
      exact absurd (h ▸ hy) (not_endsPart_escapeChar c _)
    | cons d ds =>
      rw [List.flatMap_cons, List.flatMap_cons, List.append_assoc, List.append_assoc] at h
      obtain ⟨rfl, hrest⟩ := escapeChar_append_inj h
      obtain ⟨rfl, rfl⟩ := ih _ hrest
      exact ⟨rfl, rfl⟩

/-! ## Symbols -/

/-- A part of a symbol, with the underscore in front of it. -/
def part (name : String) : List Char := '_' :: (escape name).toList

theorem toList_symbol (start : String) (parts : List String) :
    (symbol start parts).toList = start.toList ++ parts.flatMap part := by
  induction parts generalizing start with
  | nil => simp [symbol]
  | cons name parts ih =>
    have hcons : symbol start (name :: parts) = symbol (start ++ "_" ++ escape name) parts := rfl
    rw [hcons, ih]
    simp [part]

/-- The escape of an identifier starts with a letter, or with an underscore and a digit. -/
theorem exists_escape_eq {name : String} (h : isIdentifier name = true) :
    ∃ c rest, (escape name).toList = c :: rest ∧ c ≠ '0' ∧ c ≠ '1' ∧
      (c = '_' → ∃ more, rest = '1' :: more) := by
  obtain ⟨c, cs, hname, hstart, -⟩ := Lexer.isIdentifier_cons h
  have hdigit := Lexer.isDigit_of_startsIdent hstart
  have hne : ∀ {d : Char}, d.isDigit = true → c ≠ d := by
    rintro d hd rfl
    exact absurd (hdigit.symm.trans hd) (by simp)
  rw [toList_escape, hname, List.flatMap_cons]
  by_cases hc : c = '_'
  · subst hc
    exact ⟨'_', '1' :: cs.flatMap escapeChar, rfl, by decide, by decide, fun _ => ⟨_, rfl⟩⟩
  · have halnum : c.isAlphanum = true := by
      simp only [Lexer.startsIdent, Bool.or_eq_true, beq_iff_eq, hc, or_false] at hstart
      rw [Char.isAlphanum, hstart, Bool.true_or]
    exact ⟨c, cs.flatMap escapeChar, by rw [escapeChar, if_pos halnum]; rfl, hne (by decide),
      hne (by decide), fun h => absurd h hc⟩

theorem endsPart_part {name : String} (h : isIdentifier name = true) (x : List Char) :
    EndsPart (part name ++ x) := by
  obtain ⟨c, rest, he, hzero, hone, -⟩ := exists_escape_eq h
  exact .inr ⟨c, rest ++ x, by rw [part, he]; rfl, hzero, hone⟩

/-- What may stand behind the parts of a symbol: nothing, or three underscores. -/
def EndsSymbol (cs : List Char) : Prop := cs = [] ∨ ∃ rest, cs = '_' :: '_' :: '_' :: rest

theorem EndsSymbol.endsPart {cs : List Char} (h : EndsSymbol cs) : EndsPart cs := by
  rcases h with rfl | ⟨rest, rfl⟩
  · exact .inl rfl
  · exact .inr ⟨'_', '_' :: rest, rfl, by decide, by decide⟩

/-- No part starts with three underscores. -/
theorem not_endsSymbol_part {name : String} (h : isIdentifier name = true) (x : List Char) :
    ¬EndsSymbol (part name ++ x) := by
  obtain ⟨c, rest, he, -, -, hunderscore⟩ := exists_escape_eq h
  rw [part, he]
  rintro (hnil | ⟨more, hmore⟩)
  · exact absurd hnil (by simp)
  · obtain ⟨hc, hrest⟩ : c = '_' ∧ rest ++ x = '_' :: more := by simpa using hmore
    obtain ⟨digits, rfl⟩ := hunderscore hc
    exact absurd hrest (by simp)

theorem endsPart_flatMap_part {parts : List String} (h : ∀ p ∈ parts, isIdentifier p = true)
    {x : List Char} (hx : EndsSymbol x) : EndsPart (parts.flatMap part ++ x) := by
  cases parts with
  | nil => exact hx.endsPart
  | cons name parts =>
    rw [List.flatMap_cons, List.append_assoc]
    exact endsPart_part (h name List.mem_cons_self) _

/-- Parts that are identifiers can be told from the joined text, and so can its end. -/
theorem flatMap_part_append_inj {parts parts' : List String}
    (h : ∀ p ∈ parts, isIdentifier p = true) (h' : ∀ p ∈ parts', isIdentifier p = true)
    {x y : List Char} (hx : EndsSymbol x) (hy : EndsSymbol y)
    (heq : parts.flatMap part ++ x = parts'.flatMap part ++ y) : parts = parts' ∧ x = y := by
  induction parts generalizing parts' with
  | nil =>
    cases parts' with
    | nil => exact ⟨rfl, heq⟩
    | cons name' parts' =>
      rw [List.flatMap_nil, List.nil_append, List.flatMap_cons, List.append_assoc] at heq
      exact absurd (heq ▸ hx) (not_endsSymbol_part (h' name' List.mem_cons_self) _)
  | cons name parts ih =>
    cases parts' with
    | nil =>
      rw [List.flatMap_nil, List.nil_append, List.flatMap_cons, List.append_assoc] at heq
      exact absurd (heq ▸ hy) (not_endsSymbol_part (h name List.mem_cons_self) _)
    | cons name' parts' =>
      obtain ⟨-, hparts⟩ := List.forall_mem_cons.1 h
      obtain ⟨-, hparts'⟩ := List.forall_mem_cons.1 h'
      rw [List.flatMap_cons, List.flatMap_cons, List.append_assoc, List.append_assoc] at heq
      obtain ⟨rfl, hrest⟩ := escape_append_inj (endsPart_flatMap_part hparts hx)
        (endsPart_flatMap_part hparts' hy) (List.cons.inj heq).2
      obtain ⟨rfl, rfl⟩ := ih hparts hparts' hrest
      exact ⟨rfl, rfl⟩

/-- A symbol of identifiers determines its parts. -/
theorem symbol_inj {start : String} {parts parts' : List String}
    (h : ∀ p ∈ parts, isIdentifier p = true) (h' : ∀ p ∈ parts', isIdentifier p = true)
    (heq : symbol start parts = symbol start parts') : parts = parts' := by
  have hchars := congrArg String.toList heq
  rw [toList_symbol, toList_symbol] at hchars
  have hparts : parts.flatMap part ++ [] = parts'.flatMap part ++ [] := by
    rw [List.append_cancel_left hchars]
  exact (flatMap_part_append_inj h h' (.inl rfl) (.inl rfl) hparts).1

theorem isNameChar_of_mem_symbol {start : String} (hstart : start.toList.all isNameChar = true)
    (parts : List String) : (symbol start parts).toList.all isNameChar = true := by
  rw [toList_symbol, List.all_append, hstart, Bool.true_and, List.all_eq_true]
  intro c hc
  obtain ⟨name, -, hname⟩ := List.mem_flatMap.1 hc
  rcases List.mem_cons.1 hname with rfl | hescape
  · decide
  · exact isNameChar_of_mem_escape hescape

/-! ## Underscores in escaped names -/

/-- Behind every underscore stands another character. -/
inductive Separated : List Char → Prop
  | nil : Separated []
  | plain {c : Char} {cs : List Char} : c ≠ '_' → Separated cs → Separated (c :: cs)
  | underscore {c : Char} {cs : List Char} : c ≠ '_' → Separated cs → Separated ('_' :: c :: cs)

theorem Separated.append {a b : List Char} (ha : Separated a) (hb : Separated b) :
    Separated (a ++ b) := by
  induction ha with
  | nil => exact hb
  | plain hc _ ih => exact .plain hc ih
  | underscore hc _ ih => exact .underscore hc ih

theorem Separated.flatMap {α : Type} {f : α → List Char} {xs : List α}
    (h : ∀ x ∈ xs, Separated (f x)) : Separated (xs.flatMap f) := by
  induction xs with
  | nil => exact .nil
  | cons x xs ih =>
    obtain ⟨hx, hxs⟩ := List.forall_mem_cons.1 h
    rw [List.flatMap_cons]
    exact hx.append (ih hxs)

theorem Separated.of_forall_ne {cs : List Char} (h : ∀ c ∈ cs, c ≠ '_') : Separated cs := by
  induction cs with
  | nil => exact .nil
  | cons c cs ih =>
    obtain ⟨hc, hcs⟩ := List.forall_mem_cons.1 h
    exact .plain hc (ih hcs)

/-- Two underscores never stand side by side. -/
theorem Separated.not_pair {cs : List Char} (h : Separated cs) : ¬['_', '_'] <:+: cs := by
  induction h with
  | nil => simp
  | plain hc _ ih =>
    intro hpair
    rcases List.infix_cons_iff.1 hpair with ⟨rest, hfront⟩ | hinner
    · exact hc (List.cons.inj hfront).1.symm
    · exact ih hinner
  | underscore hc _ ih =>
    intro hpair
    rcases List.infix_cons_iff.1 hpair with ⟨rest, hfront⟩ | hinner
    · exact hc (List.cons.inj (List.cons.inj hfront).2).1.symm
    · rcases List.infix_cons_iff.1 hinner with ⟨rest, hfront⟩ | hinner
      · exact hc (List.cons.inj hfront).1.symm
      · exact ih hinner

theorem Separated.not_last {cs : List Char} (h : Separated cs) : ¬['_'] <:+ cs := by
  induction h with
  | nil => simp
  | plain hc _ ih =>
    intro hlast
    rcases List.suffix_cons_iff.1 hlast with hwhole | hinner
    · exact hc (List.cons.inj hwhole).1.symm
    · exact ih hinner
  | underscore hc _ ih =>
    intro hlast
    rcases List.suffix_cons_iff.1 hlast with hwhole | hinner
    · exact absurd hwhole (by simp)
    · rcases List.suffix_cons_iff.1 hinner with hwhole | hinner
      · exact hc (List.cons.inj hwhole).1.symm
      · exact ih hinner

theorem separated_escapeChar (c : Char) : Separated (escapeChar c) := by
  rcases escapeChar_cases c with ⟨hc, he⟩ | ⟨-, he⟩ | ⟨he, -⟩
  · rw [he]
    exact .plain (ne_underscore_of_isAlphanum hc) .nil
  · rw [he]
    exact .underscore (by decide) .nil
  · rw [he]
    -- a unit has one underscore, in front of a zero and digits
    refine Separated.flatMap fun unit _ => .underscore (by decide) (.of_forall_ne ?_)
    intro d hd
    exact ne_underscore_of_isAlphanum (isAlphanum_of_mem_unitDigits hd)

theorem separated_escape (name : String) : Separated (escape name).toList := by
  rw [toList_escape]
  exact Separated.flatMap fun c _ => separated_escapeChar c

theorem escape_inj {a b : String} (h : escape a = escape b) : a = b := by
  have hchars : (escape a).toList ++ [] = (escape b).toList ++ [] := by rw [h]
  exact (escape_append_inj (.inl rfl) (.inl rfl) hchars).1

/-- Escapes keep all names apart, whatever characters these have, and are themselves safe parts of a
    C name: ASCII letters, digits and single underscores, none of which is the last character. -/
theorem escapes_are_distinct_and_safe :
    Function.Injective escape ∧
    ∀ name : String,
      (∀ c ∈ (escape name).toList, c.isAlphanum = true ∨ c = '_') ∧
      ¬['_', '_'] <:+: (escape name).toList ∧
      ¬['_'] <:+ (escape name).toList := by
  constructor
  · intro a b h
    exact escape_inj h
  · intro name
    refine ⟨?_, (separated_escape name).not_pair, (separated_escape name).not_last⟩
    intro c hc
    simpa [isNameChar] using isNameChar_of_mem_escape hc

/-- A digit behind an escape is none of its digits, and a character outside the basic plane has two
    units. -/
example : escape "a_1-2😀" = "a_11_0002d2_0d83d_0de00" := by decide

end IdlBind.CName
