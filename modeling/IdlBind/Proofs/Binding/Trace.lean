import IdlBind.Proofs.Binding.Grammar
import IdlBind.Proofs.Binding.Truncation
import IdlBind.Proofs.Parsing.OrderlyTrace

set_option autoImplicit false

/-! # The trace of the reader of binding descriptions

Each reader under its own name with its loops marked, and that it traces the reader. Each loop
starts with a keyword or a string that is taken at once, so that no two loops start at one place. -/

namespace IdlBind.Binding.Trace

open Traced
open TokenParser hiding commaItem separated closeGroup closeStatement skipGroup skipStatement

variable {n : Nat}

/-! ## What the readers take -/

theorem expectKeywordAt_forward : expectKeywordAt.Forward := by
  rintro ts ⟨keyword, position⟩ rest h
  rw [expectKeywordAt_eq_ok_iff] at h
  rw [h]
  exact List.suffix_cons _ rest

theorem expectKeywordAt_takes : expectKeywordAt.Takes := by
  rintro ts ⟨keyword, position⟩ rest h
  rw [expectKeywordAt_eq_ok_iff] at h
  rw [h]
  exact Nat.lt_succ_self _

theorem failWith_traces {α : Type} (e : ParseError) :
    Traces n (step (failWith e : TokenParser α)) (failWith e) := .failing nofun

theorem expectString_local {g : Position → Position} {N M : Nat} :
    Local g N M 1 0 expectString expectString := Local.expect expectString_expects

/-! ## The binding block -/

def entryBody (keyword : String) (position : Position) : Traced Entry := do
  let entry ← match keyword with
    | "type" => .type <$> step expectIdent
    | "interface" => .interface <$> step expectIdent
    | "private" => do
      let ctype ← step expectString
      let name ← step expectIdent
      pure (.privateField ctype name)
    | other => step (failWith (.statement (.unknownEntry other) position))
  step (expectPunct ';')
  pure entry

theorem entryBody_traces (keyword : String) (position : Position) :
    Traces n (entryBody keyword position) (Binding.entryBody keyword position) := by
  have hname : Traces n (step expectIdent) expectIdent := .stepLocal expectIdent_local
  have hclose : ∀ e : Entry, Traces n (step (expectPunct ';') >>= fun _ => pure e)
      (expectPunct ';' >>= fun _ => pure e) :=
    fun e => (Traces.stepLocal (expectPunct_local ';')).bind fun _ => .pure e
  by_cases htype : keyword = "type"
  · subst htype
    exact (hname.map Entry.type).bind hclose
  by_cases hinterface : keyword = "interface"
  · subst hinterface
    exact (hname.map Entry.interface).bind hclose
  by_cases hprivate : keyword = "private"
  · subst hprivate
    refine (Traces.stepLocal expectString_local).bind fun ctype => ?_
    exact hname.bind fun name => (Traces.pure _).bind hclose
  have htraced : entryBody keyword position
      = step (failWith (.statement (.unknownEntry keyword) position)) >>= fun e =>
        step (expectPunct ';') >>= fun _ => pure e := by
    unfold entryBody
    split <;> first | contradiction | rfl
  have hread : Binding.entryBody keyword position
      = failWith (.statement (.unknownEntry keyword) position) >>= fun e =>
        expectPunct ';' >>= fun _ => pure e := by
    unfold Binding.entryBody
    split <;> first | contradiction | rfl
  rw [htraced, hread]
  exact (failWith_traces _).bind hclose

def entry : Traced (Option Entry) := do
  if ← step (acceptPunct '}') then pure none
  else iteration .entries do
    let (keyword, position) ← step expectKeywordAt
    let e ← entryBody keyword position
    pure (some e)

/-- A keyword starts an iteration, so that every bound will do behind it. -/
theorem keyed_traces {α : Type} {l : Loop} {x : String × Position → Traced α}
    {q : String × Position → TokenParser α} (h : ∀ r, Traces n (x r) (q r)) :
    Traces (l.rank + 1) (iteration l (step expectKeywordAt >>= x)) (expectKeywordAt >>= q) := by
  have hread : Traces l.rank (step expectKeywordAt >>= x) (expectKeywordAt >>= q) :=
    (Traces.step expectKeywordAt_forward).bind_taking expectKeywordAt_takes h
  exact hread.iteration (expectKeywordAt_takes.bind fun r => (h r).forward)
    ⟨Nat.le_refl _, Nat.lt_succ_self _⟩

theorem entry_traces : Traces 1 entry Binding.entry := by
  refine (Traces.stepLocal (acceptPunct_local '}')).bind fun isEnd => ?_
  refine .ite (fun _ => .pure none) fun _ => ?_
  exact keyed_traces (l := .entries) fun r =>
    (entryBody_traces (n := 0) r.1 r.2).bind fun e => .pure (some e)

def block : Traced Statement := do
  let name ← step expectIdent
  step (expectPunct '{')
  let entries ← many entry
  let _ ← step (acceptPunct ';')
  pure (.block name entries)

theorem block_traces : Traces n block Binding.block := by
  refine .stepTaking (m := 1) expectIdent_local (Nat.le_refl 1) fun name => ?_
  refine (Traces.stepLocal (expectPunct_local '{')).bind fun _ => ?_
  refine entry_traces.many.bind fun entries => ?_
  exact (Traces.stepLocal (acceptPunct_local ';')).bind fun _ => .pure _

theorem block_takes : Binding.block.Takes := by
  refine Takes.bind (Local.takes expectIdent_local (Nat.le_refl 1)) fun name => ?_
  refine Forward.bind (Local.forward (expectPunct_local '{')) fun _ => ?_
  refine Forward.bind entry_traces.many.forward fun entries => ?_
  exact Forward.bind (Local.forward (acceptPunct_local ';'))
    fun _ => Local.forward (k := 0) (Local.pure _)

/-! ## Statements -/

def statementBody (keyword : String) (position : Position) : Traced Statement := do
  match keyword with
  | "webidlfile" =>
    let reference ← step expectString
    step (expectPunct ';')
    pure (.webIdlFile reference)
  | "hdrcomment" =>
    let first ← step expectString
    let others ← many (stepIteration .strings acceptString)
    step (expectPunct ';')
    pure (.headerComment first others)
  | "preamble" =>
    let code ← step expectCode
    let _ ← step (acceptPunct ';')
    pure (.preamble code)
  | other => step (failWith (.statement (.unknownStatement other) position))

theorem acceptString_advances : acceptString.Advances := acceptString_accepts.advances

theorem statementBody_traces (keyword : String) (position : Position) :
    Traces 1 (statementBody keyword position) (Binding.statementBody keyword position) := by
  have hstring : Traces 1 (step expectString) expectString := .stepLocal expectString_local
  have hclose : ∀ s : Statement, Traces 1 (step (expectPunct ';') >>= fun _ => pure s)
      (expectPunct ';' >>= fun _ => pure s) :=
    fun s => (Traces.stepLocal (expectPunct_local ';')).bind fun _ => .pure s
  have hitem : Traces 1 (stepIteration .strings acceptString) acceptString :=
    .stepIteration (Local.forward (Local.accept acceptString_accepts)) acceptString_advances
      (by decide)
  by_cases hfile : keyword = "webidlfile"
  · subst hfile
    exact hstring.bind fun reference => hclose _
  by_cases hcomment : keyword = "hdrcomment"
  · subst hcomment
    exact hstring.bind fun first => hitem.many.bind fun others => hclose _
  by_cases hpreamble : keyword = "preamble"
  · subst hpreamble
    refine (Traces.stepLocal (Local.expect expectCode_expects)).bind fun code => ?_
    exact (Traces.stepLocal (acceptPunct_local ';')).bind fun _ => .pure _
  have htraced : statementBody keyword position
      = step (failWith (.statement (.unknownStatement keyword) position)) := by
    unfold statementBody
    split <;> first | contradiction | rfl
  have hread : Binding.statementBody keyword position
      = failWith (.statement (.unknownStatement keyword) position) := by
    unfold Binding.statementBody
    split <;> first | contradiction | rfl
  rw [htraced, hread]
  exact failWith_traces _

def plainStatement : Traced (Option Statement) := do
  if (← step atEnd) || (← step (checkIdent "binding")) then pure none
  else iteration .bindingStatements do
    let (keyword, position) ← step expectKeywordAt
    let s ← statementBody keyword position
    pure (some s)

theorem plainStatement_traces : Traces 1 plainStatement Binding.plainStatement := by
  refine (Traces.stepLocal atEnd_local).bind fun ended => ?_
  refine (Traces.stepLocal (checkIdent_local "binding")).bind fun isBlock => ?_
  refine .ite (fun _ => .pure none) fun _ => ?_
  exact keyed_traces (l := .bindingStatements) fun r =>
    (statementBody_traces r.1 r.2).bind fun s => .pure (some s)

def description : Traced (List Statement) := do
  let before ← many plainStatement
  if ← step atEnd then pure before
  else
    let bound ← iteration .bindingStatements do
      step skip
      block
    let behind ← many plainStatement
    match ← step peek? with
    | none => pure (before ++ bound :: behind)
    | some t =>
      -- a second block starts an iteration, which fails
      iteration .bindingStatements (step (failWith (.statement .secondBindingBlock t.position)))

theorem description_traces : Traces 1 description Binding.description := by
  have hblock : Traces 1 (iteration .bindingStatements (step skip >>= fun _ => block))
      (skip >>= fun _ => Binding.block) := by
    have hread : Traces 0 (step skip >>= fun _ => block) (skip >>= fun _ => Binding.block) :=
      (Traces.stepLocal skip_local).bind fun _ => block_traces
    have hskip : Forward skip := Local.forward skip_local
    exact hread.iteration (hskip.bind_takes fun _ => block_takes) (by decide)
  refine plainStatement_traces.many.bind fun before => ?_
  refine (Traces.stepLocal atEnd_local).bind fun ended => ?_
  refine .ite (fun _ => .pure before) fun _ => ?_
  rw [← bind_assoc]
  refine hblock.bind fun bound => ?_
  refine plainStatement_traces.many.bind fun behind => ?_
  refine (Traces.look _).bind fun t? => ?_
  cases t? with
  | none => exact .pure _
  | some t => exact (failWith_traces (n := 0) _).iteration nofun (by decide)

/-- Of a description nothing is left. -/
theorem description_rest {ts rest : List Token} {ss : List Statement}
    (h : Binding.description ts = .ok (ss, rest)) : rest = [] := by
  unfold Binding.description at h
  obtain ⟨before, stop, -, h⟩ := Parser.bind_eq_ok_iff.1 h
  obtain ⟨ended, _, hended, h⟩ := Parser.bind_eq_ok_iff.1 h
  obtain ⟨rfl, rfl⟩ := Prod.mk.inj (Except.ok.inj hended)
  split at h
  · rename_i hstop
    obtain ⟨-, rfl⟩ := Prod.mk.inj (Except.ok.inj h)
    exact List.isEmpty_iff.1 hstop
  · obtain ⟨_, _, -, h⟩ := Parser.bind_eq_ok_iff.1 h
    obtain ⟨bound, _, -, h⟩ := Parser.bind_eq_ok_iff.1 h
    obtain ⟨behind, last, -, h⟩ := Parser.bind_eq_ok_iff.1 h
    obtain ⟨next, _, hnext, h⟩ := Parser.bind_eq_ok_iff.1 h
    obtain ⟨rfl, rfl⟩ := Prod.mk.inj (Except.ok.inj hnext)
    cases last with
    | nil => exact (Prod.mk.inj (Except.ok.inj h)).2.symm
    | cons t last => exact absurd h (by simp [failWith])

end IdlBind.Binding.Trace
