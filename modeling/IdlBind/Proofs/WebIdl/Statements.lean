import IdlBind.Proofs.WebIdl.Skipping

set_option autoImplicit false

/-! # Statements one after the other

A statement takes tokens and does not depend on what follows it (`statement_settled`), so that the
definitions among tokens are those of the statements, one after the other. -/

namespace IdlBind.WebIdl

open TokenParser

/-! ## One statement -/

theorem statement_of_skipAttributes {ts mid : List Token}
    (h : skipAttributes ts = .ok ((), mid)) :
    statement ts = if mid.isEmpty then .ok (none, mid) else (some <$> declaration) mid := by
  unfold statement
  rw [Parser.bind_apply_of_ok h]
  show (if mid.isEmpty then _ else _ : TokenParser _) mid = _
  split <;> rfl

theorem statement_nil : statement [] = .ok (none, []) := by
  have havoids : Avoids (.punct '[') [] := rfl
  exact statement_of_skipAttributes (skipAttributes_of_avoids havoids)

/-- What a statement is read as stands behind its extended attributes. -/
theorem exists_skipAttributes {ts rest : List Token} {result : Option (Option Definition)}
    (h : statement ts = .ok (result, rest)) : ∃ mid, skipAttributes ts = .ok ((), mid) := by
  unfold statement at h
  obtain ⟨⟨⟩, mid, hskip, -⟩ := Parser.bind_eq_ok_iff.1 h
  exact ⟨mid, hskip⟩

theorem map_some_ne_none {p : TokenParser (Option Definition)} {ts rest : List Token} :
    (some <$> p) ts ≠ .ok (none, rest) := by
  rw [map_eq_pure_bind, Parser.bind_apply]
  split <;> simp

/-- A statement takes tokens and does not depend on what follows it. -/
theorem statement_settled : Parser.Settled statement := by
  constructor
  intro ts rest d? h
  obtain ⟨mid, hskip⟩ := exists_skipAttributes h
  rw [statement_of_skipAttributes hskip] at h
  cases mid with
  | nil => exact absurd h (by simp)
  | cons t mid =>
    -- skipping stops in front of a token of the statement, whatever follows that
    obtain ⟨skipped, rfl, -, hskipped⟩ := Local.replace skipAttributes_local hskip
    obtain ⟨front, hfront, hpos, hmore⟩ := Local.replace (declaration_local.map some) h
    refine ⟨skipped ++ front, by rw [hfront, List.append_assoc], ?_, fun rest' => ?_⟩
    · rw [List.length_append]
      omega
    · have halike : Alike 1 (t :: mid) (front ++ rest') := by
        have hlook := Alike.append (g := id) hpos (Alike.zero rest rest')
        rwa [moved_id, ← hfront] at hlook
      rw [List.append_assoc, statement_of_skipAttributes (hskipped _ halike)]
      cases front with
      | nil => exact absurd hpos (by simp)
      | cons t' front => exact hmore rest' (.zero _ _)

/-- Where there is no statement, there are only extended attributes. -/
theorem statement_none {ts rest : List Token} (h : statement ts = .ok (none, rest)) :
    rest = [] ∧ skipAttributes ts = .ok ((), []) := by
  obtain ⟨mid, hskip⟩ := exists_skipAttributes h
  rw [statement_of_skipAttributes hskip] at h
  cases mid with
  | nil => exact ⟨(Prod.mk.inj (Except.ok.inj h)).2.symm, hskip⟩
  | cons t mid => exact absurd h map_some_ne_none

/-! ## All statements -/

/-- The statements of tokens that are read to the end, with more tokens behind them. -/
theorem collect_statement_append {ts : List Token} {found : List (Option Definition)}
    (h : Parser.collect statement ts = (found, .ok [])) (us : List Token) :
    Parser.collect statement (ts ++ us)
      = (found ++ (Parser.collect statement us).1, (Parser.collect statement us).2) := by
  refine statement_settled.collect_append (fun hnone => ?_) h
  have hskip := skipAttributes_append (statement_none hnone).2 us
  unfold statement
  rw [Parser.bind_apply, Parser.bind_apply, hskip]

theorem eq_nil_of_collect_statement {ts rest : List Token} {found : List (Option Definition)}
    (h : Parser.collect statement ts = (found, .ok rest)) : rest = [] := by
  fun_induction Parser.collect statement ts generalizing found with
  | case1 => exact absurd (Prod.mk.inj h).2 (by simp)
  | case2 ts rest' hitem =>
    rw [← Except.ok.inj (Prod.mk.inj h).2]
    exact (statement_none hitem).1
  | case3 ts d? mid hitem hlt more outcome hmore ih =>
    obtain ⟨-, rfl⟩ := Prod.mk.inj h
    exact ih hmore
  | case4 ts d? rest' hitem hlt => exact absurd (statement_settled.length_lt hitem) hlt

theorem definitions_congr {ts us : List Token} (h : statement ts = statement us) :
    definitions ts = definitions us := by
  unfold definitions
  rw [statement_settled.collect_congr h]

theorem definitions_cons {ts us : List Token} {d? : Option Definition}
    (h : statement ts = .ok (some d?, us)) :
    definitions ts = (d?.toList ++ (definitions us).1, (definitions us).2) := by
  unfold definitions
  rw [statement_settled.collect_cons h]
  cases d? <;> rfl

theorem definitions_append {ts : List Token} (h : (definitions ts).2 = .ok ()) (us : List Token) :
    definitions (ts ++ us) = ((definitions ts).1 ++ (definitions us).1, (definitions us).2) := by
  rcases hcollect : Parser.collect statement ts with ⟨found, e | rest⟩
  · simp only [definitions, hcollect] at h
    exact absurd h (by simp [Except.map])
  · obtain rfl := eq_nil_of_collect_statement hcollect
    simp only [definitions, hcollect, collect_statement_append hcollect, List.filterMap_append]

/-- The same tokens at other places give the same definitions. -/
theorem definitions_relocate (g : Position → Position) (ts : List Token) :
    definitions (ts.map (·.relocate g))
      = ((definitions ts).1, (definitions ts).2.mapError (·.relocate g)) := by
  show definitions (moved g ts) = _
  rcases hcollect : Parser.collect statement ts with ⟨found, e | rest⟩
  · have herror := statement_local.collect_error (g := g) (Nat.lt_succ_self _)
      (Nat.lt_succ_self _) hcollect
    simp only [definitions, hcollect, herror]
    rfl
  · obtain rfl := eq_nil_of_collect_statement hcollect
    have hok := statement_local.collect_ok (g := g) (List.append_nil ts).symm
      (Nat.lt_succ_self _) (Nat.lt_succ_self _) (.refl 1 []) hcollect
    rw [List.append_nil] at hok
    simp only [definitions, hcollect, hok]
    rfl

/-- Tokens of the same kinds are read as the same definitions, wherever they stand. -/
theorem definitions_of_kinds {ts us : List Token} {found : List Definition}
    (hkinds : ts.map (·.kind) = us.map (·.kind)) (h : definitions ts = (found, .ok ())) :
    definitions us = (found, .ok ()) := by
  -- to forget the places of tokens is to move all of them to one place
  have hplace : ∀ l : List Token, l.map (·.relocate fun _ => .start) = place (l.map (·.kind)) := by
    intro l
    rw [place, List.map_map]
    rfl
  have hmoved : ts.map (·.relocate fun _ => .start) = us.map (·.relocate fun _ => .start) := by
    rw [hplace, hplace, hkinds]
  have hus := definitions_relocate (fun _ => .start) us
  rw [← hmoved, definitions_relocate, h] at hus
  obtain ⟨hfound, houtcome⟩ := Prod.mk.inj hus
  rcases hdefinitions : definitions us with ⟨found', e | ⟨⟩⟩
  · rw [hdefinitions] at houtcome
    have hkept : (.ok () : Except ParseError Unit) = .error (e.relocate fun _ => .start) := houtcome
    exact absurd hkept (by simp)
  · rw [hdefinitions] at hfound
    exact congrArg (·, Except.ok ()) hfound.symm

end IdlBind.WebIdl
