import IdlBind.Proofs.Parsing.Steps

set_option autoImplicit false

/-! # Readers that leave a trace

A traced reader does what a reader does and lists, in order, the places that it was at: where each
step was made, and where each iteration of a loop started. It is composed as the reader is.

In an orderly trace no place lies behind a later one, and between two iterations of the same loop
something is taken (`Orderly`). Along a sequence this is kept because a success lies behind every
iteration that was started (`Orderly.sequence`), and around an iteration because only loops of lower
rank start in it before anything is taken (`Orderly.iteration`). -/

namespace IdlBind

/-- The loops of the readers, and the reader of types, which calls itself. -/
inductive Loop where
  | definitions
  | members
  | modifiers
  | arguments
  | types
  | typeParameters
  | arraySuffixes
  | attributes
  | skippedGroup
  | skippedStatement
  | bindingStatements
  | entries
  | strings
  deriving DecidableEq, Repr

/-- In an iteration of a loop, only iterations of lower rank start before anything is taken: a
    member may start with attributes and a type, a type with attributes, and those with a group. -/
def Loop.rank : Loop → Nat
  | .members | .arguments | .typeParameters => 3
  | .definitions | .types => 2
  | .attributes => 1
  | .modifiers | .arraySuffixes | .skippedGroup | .skippedStatement => 0
  | .bindingStatements | .entries | .strings => 0

/-- A place in the run of a reader: the tokens ahead of it, and the loop of which an iteration
    starts there, if it is not a step. -/
structure Mark where
  loop? : Option Loop
  ahead : List Token

/-- A reader with the places that it was at. -/
def Traced (α : Type) : Type := List Token → Except ParseError (α × List Token) × List Mark

namespace Traced

variable {α β : Type}

/-- The reader without its trace. -/
def run (x : Traced α) : TokenParser α := fun ts => (x ts).1

/-! ## Composing -/

/-- One reader behind another. A failure ends the trace. -/
protected def bind (x : Traced α) (f : α → Traced β) : Traced β := fun ts =>
  match x ts with
  | (.error e, marks) => (.error e, marks)
  | (.ok (a, rest), marks) => ((f a rest).1, marks ++ (f a rest).2)

instance : Monad Traced where
  pure a := fun ts => (.ok (a, ts), [])
  bind := Traced.bind

/-- A step. -/
def step (p : TokenParser α) : Traced α := fun ts => (p ts, [⟨none, ts⟩])

/-- An iteration of a loop. -/
def iteration (l : Loop) (x : Traced α) : Traced α := fun ts => ((x ts).1, ⟨some l, ts⟩ :: (x ts).2)

/-- A step that is an iteration of a loop if it gives anything. -/
def stepIteration (l : Loop) (p : TokenParser (Option α)) : Traced (Option α) := fun ts =>
  match p ts with
  | .ok (some a, rest) => (.ok (some a, rest), [⟨some l, ts⟩])
  | outcome => (outcome, [⟨none, ts⟩])

/-- Repeats a reader until it gives `none`. -/
def manyFrom (item : Traced (Option α)) (ts : List Token) :
    Except ParseError (List α × List Token) × List Mark :=
  match item ts with
  | (.error e, marks) => (.error e, marks)
  | (.ok (none, rest), marks) => (.ok ([], rest), marks)
  | (.ok (some a, rest), marks) =>
    if rest.length < ts.length then
      ((manyFrom item rest).1.map fun found => (a :: found.1, found.2),
        marks ++ (manyFrom item rest).2)
    else (.ok ([a], rest), marks)
termination_by ts.length

/-- Repeats a reader until it gives `none`. -/
def many (item : Traced (Option α)) : Traced (List α) := manyFrom item

/-- The reader that `body` describes in terms of itself, on one list. -/
def recursiveFrom (l : Loop) (stuck : ParseError) (body : Traced α → Traced α) (ts : List Token) :
    Except ParseError (α × List Token) × List Mark :=
  iteration l (body fun rest => if rest.length < ts.length then recursiveFrom l stuck body rest
    else (.error stuck, [])) ts
termination_by ts.length

/-- The reader that `body` describes in terms of itself. Each call of it counts as an iteration. -/
def recursive (l : Loop) (stuck : ParseError) (body : Traced α → Traced α) : Traced α :=
  recursiveFrom l stuck body

/-- A repetition with its trace forgotten repeats its item with its trace forgotten. -/
theorem run_many (item : Traced (Option α)) : (many item).run = Parser.many item.run := by
  funext ts
  show (manyFrom item ts).1 = _
  fun_induction manyFrom item ts with
  | case1 ts e marks hitem =>
    have hrun : item.run ts = .error e := congrArg Prod.fst hitem
    rw [Parser.many_eq_error hrun]
  | case2 ts rest marks hitem =>
    have hrun : item.run ts = .ok (none, rest) := congrArg Prod.fst hitem
    rw [Parser.many_eq_nil hrun]
  | case3 ts a rest marks hitem hlt ih =>
    have hrun : item.run ts = .ok (some a, rest) := congrArg Prod.fst hitem
    rw [ih]
    cases hmore : Parser.many item.run rest with
    | error e => rw [Parser.many_cons_eq_error hrun hlt hmore]; rfl
    | ok found => rw [Parser.many_cons hrun hlt hmore]; rfl
  | case4 ts a rest marks hitem hlt =>
    have hrun : item.run ts = .ok (some a, rest) := congrArg Prod.fst hitem
    rw [Parser.many_eq_singleton hrun hlt]

/-! ## Lists -/

/-- Reads an item behind a comma, if a comma is next. -/
def commaItem (item : Traced α) : Traced (Option α) := do
  if ← step (TokenParser.acceptPunct ',') then some <$> item else pure none

/-- Reads one or more items with commas between them: the first and the others. -/
def separated (first other : Traced α) : Traced (α × List α) := do
  let a ← first
  let others ← many (commaItem other)
  pure (a, others)

/-! ## Skipping -/

/-- What follows the bracket that closes `depth` open ones, with an iteration for each token. -/
def closeGroup (opening closing : Char) : Nat → List Token →
    Except ParseError (List Token) × List Mark
  | 0, ts => (.ok ts, [])
  | _ + 1, [] => (.error (.unexpectedEof (.punct closing)), [⟨some .skippedGroup, []⟩])
  | depth + 1, t :: ts =>
    let next := if t.isPunct opening then closeGroup opening closing (depth + 2) ts
      else if t.isPunct closing then closeGroup opening closing depth ts
      else closeGroup opening closing (depth + 1) ts
    (next.1, ⟨some .skippedGroup, t :: ts⟩ :: next.2)

/-- Takes a group in balanced brackets, which starts with the next token. -/
def skipGroup (opening closing : Char) : Traced Unit := do
  step (TokenParser.expectPunct opening)
  fun ts => ((closeGroup opening closing 1 ts).1.map fun rest => ((), rest),
    (closeGroup opening closing 1 ts).2)

/-- What follows the first semicolon outside brackets, of which `depth` are open, with an iteration
    for each token. -/
def closeStatement : Nat → List Token → Except ParseError (List Token) × List Mark
  | _, [] => (.error (.unexpectedEof (.punct ';')), [⟨some .skippedStatement, []⟩])
  | depth, t :: ts =>
    let next := if TokenParser.opensBracket t then closeStatement (depth + 1) ts
      else if TokenParser.closesBracket t then closeStatement (depth - 1) ts
      else if t.isPunct ';' && depth == 0 then (.ok ts, [])
      else closeStatement depth ts
    (next.1, ⟨some .skippedStatement, t :: ts⟩ :: next.2)

/-- Takes the tokens up to and including the next semicolon outside brackets. -/
def skipStatement : Traced Unit := fun ts =>
  ((closeStatement 0 ts).1.map fun rest => ((), rest), (closeStatement 0 ts).2)

end Traced

/-! ## Orderly traces -/

/-- What may come behind a place: nothing is taken back, and another iteration of the same loop
    starts only once something is taken. -/
def Mark.Before (m n : Mark) : Prop :=
  n.ahead <:+ m.ahead ∧
    ∀ l, m.loop? = some l → n.loop? = some l → n.ahead.length < m.ahead.length

/-- Places among `ts`, one behind the other. -/
structure Ordered (ts : List Token) (marks : List Mark) : Prop where
  ahead : ∀ m ∈ marks, m.ahead <:+ ts
  pairwise : marks.Pairwise Mark.Before

/-- What a reader comes to on `ts` is orderly: the places are ordered; those where nothing is taken
    yet are of iterations with a rank below `bound`; and a success lies behind all of them, with
    something taken since each iteration started. -/
structure Orderly {α : Type} (bound : Nat) (ts : List Token)
    (result : Except ParseError (α × List Token) × List Mark) : Prop where
  ordered : Ordered ts result.2
  below : ∀ m ∈ result.2, ∀ l, m.loop? = some l → m.ahead.length < ts.length ∨ l.rank < bound
  behind : ∀ a rest, result.1 = .ok (a, rest) → rest <:+ ts ∧
    ∀ m ∈ result.2, rest <:+ m.ahead ∧ ∀ l, m.loop? = some l → rest.length < m.ahead.length

theorem Ordered.nil (ts : List Token) : Ordered ts [] := ⟨by simp, .nil⟩

theorem Ordered.append {ts rest : List Token} {first second : List Mark} (hfirst : Ordered ts first)
    (hsecond : Ordered rest second) (hrest : rest <:+ ts)
    (hbehind : ∀ m ∈ first, rest <:+ m.ahead ∧
      ∀ l, m.loop? = some l → rest.length < m.ahead.length) :
    Ordered ts (first ++ second) where
  ahead := by
    intro m hm
    rcases List.mem_append.1 hm with hm | hm
    · exact hfirst.ahead m hm
    · exact (hsecond.ahead m hm).trans hrest
  pairwise := by
    refine List.pairwise_append.2 ⟨hfirst.pairwise, hsecond.pairwise, fun m hm n hn => ?_⟩
    obtain ⟨hsuffix, hlength⟩ := hbehind m hm
    have hahead := hsecond.ahead n hn
    exact ⟨hahead.trans hsuffix, fun l hl _ => Nat.lt_of_le_of_lt hahead.length_le (hlength l hl)⟩

/-- No loop starts more often than there are tokens, and once more at the end. -/
theorem Ordered.countP_le {ts : List Token} {marks : List Mark} (h : Ordered ts marks) (l : Loop) :
    marks.countP (·.loop? = some l) ≤ ts.length + 1 := by
  have hcount : ∀ {marks : List Mark} (n : Nat), marks.Pairwise Mark.Before →
      (∀ m ∈ marks, m.loop? = some l → m.ahead.length < n) →
      marks.countP (·.loop? = some l) ≤ n := by
    intro marks n hpairwise hlt
    induction hpairwise generalizing n with
    | nil => exact Nat.zero_le _
    | @cons m marks hbefore _ ih =>
      by_cases hm : m.loop? = some l
      · -- what is behind an iteration starts with fewer tokens ahead
        have hbehind := ih m.ahead.length fun m' hm' hl => (hbefore m' hm').2 l hm hl
        have hhead := hlt m List.mem_cons_self hm
        rw [List.countP_cons_of_pos (by simpa using hm)]
        omega
      · rw [List.countP_cons_of_neg (by simpa using hm)]
        exact ih n fun m' hm' => hlt m' (List.mem_cons_of_mem _ hm')
  exact hcount _ h.pairwise fun m hm _ => Nat.lt_succ_of_le (h.ahead m hm).length_le

namespace Orderly

variable {α β : Type} {bound bound' : Nat} {ts rest : List Token} {marks : List Mark}

theorem mono {result : Except ParseError (α × List Token) × List Mark}
    (h : Orderly bound ts result) (hle : bound ≤ bound') : Orderly bound' ts result where
  ordered := h.ordered
  below := fun m hm l hl => (h.below m hm l hl).imp_right (Nat.lt_of_lt_of_le · hle)
  behind := h.behind

/-- A success without places. -/
theorem unmarked (a : α) (h : rest <:+ ts) : Orderly bound ts (.ok (a, rest), []) := by
  refine ⟨.nil ts, nofun, ?_⟩
  intro b out hout
  obtain ⟨-, rfl⟩ := Prod.mk.inj (Except.ok.inj hout)
  exact ⟨h, nofun⟩

/-- A failure, of whatever type. -/
theorem failed {e : ParseError}
    (h : Orderly bound ts ((.error e : Except ParseError (α × List Token)), marks)) :
    Orderly bound ts ((.error e : Except ParseError (β × List Token)), marks) where
  ordered := h.ordered
  below := h.below
  behind := by
    intro b out hout
    exact absurd hout (by simp)

/-- A success with what follows it. The bound of what follows counts only if nothing is taken. -/
theorem sequence {a : α} {result : Except ParseError (β × List Token) × List Mark}
    (hfirst : Orderly bound ts (.ok (a, rest), marks)) (hsecond : Orderly bound' rest result)
    (hbound : bound' ≤ bound ∨ rest.length < ts.length) :
    Orderly bound ts (result.1, marks ++ result.2) := by
  obtain ⟨hrest, hmarks⟩ := hfirst.behind a rest rfl
  refine ⟨hfirst.ordered.append hsecond.ordered hrest hmarks, ?_, ?_⟩
  · intro m hm l hl
    rcases List.mem_append.1 hm with hm | hm
    · exact hfirst.below m hm l hl
    · -- behind something that is taken, the place lies behind the start in any case
      have hahead := (hsecond.ordered.ahead m hm).length_le
      have hle := hrest.length_le
      rcases hsecond.below m hm l hl with hlt | hrank
      · exact Or.inl (by omega)
      · rcases hbound with hbound | hlt
        · exact Or.inr (by omega)
        · exact Or.inl (by omega)
  · intro b out hout
    obtain ⟨hsuffix, hbehind⟩ := hsecond.behind b out hout
    refine ⟨hsuffix.trans hrest, fun m hm => ?_⟩
    rcases List.mem_append.1 hm with hm | hm
    · obtain ⟨hahead, hlength⟩ := hmarks m hm
      exact ⟨hsuffix.trans hahead, fun l hl => Nat.lt_of_le_of_lt hsuffix.length_le (hlength l hl)⟩
    · exact hbehind m hm

/-- Another value of a success does not matter. -/
theorem map {outcome : Except ParseError (α × List Token)} (h : Orderly bound ts (outcome, marks))
    (f : α → β) : Orderly bound ts (outcome.map fun r => (f r.1, r.2), marks) where
  ordered := h.ordered
  below := h.below
  behind := by
    intro b out hout
    obtain ⟨⟨a, rest⟩, houtcome, hr⟩ := exists_of_map_eq_ok hout
    obtain ⟨-, rfl⟩ := Prod.mk.inj hr
    exact h.behind a rest houtcome

/-- In front of the places of a loop body stands the start of the iteration. -/
theorem ordered_iteration {l : Loop} {result : Except ParseError (α × List Token) × List Mark}
    (h : Orderly l.rank ts result) : Ordered ts (⟨some l, ts⟩ :: result.2) := by
  refine ⟨?_, List.pairwise_cons.2 ⟨fun m hm => ⟨h.ordered.ahead m hm, ?_⟩, h.ordered.pairwise⟩⟩
  · intro m hm
    rcases List.mem_cons.1 hm with rfl | hm
    · exact List.suffix_refl _
    · exact h.ordered.ahead m hm
  · intro l' hl hl'
    obtain rfl := Option.some.inj hl
    exact (h.below m hm _ hl').resolve_right (Nat.lt_irrefl _)

/-- An iteration that takes something if it succeeds. -/
theorem iteration {l : Loop} {result : Except ParseError (α × List Token) × List Mark}
    (h : Orderly l.rank ts result)
    (htakes : ∀ a rest, result.1 = .ok (a, rest) → rest.length < ts.length)
    (hbound : l.rank < bound) : Orderly bound ts (result.1, ⟨some l, ts⟩ :: result.2) := by
  refine ⟨h.ordered_iteration, ?_, ?_⟩
  · intro m hm l' hl'
    rcases List.mem_cons.1 hm with rfl | hm
    · obtain rfl := Option.some.inj hl'
      exact Or.inr hbound
    · exact (h.below m hm l' hl').imp_right (Nat.lt_trans · hbound)
  · intro a rest hrest
    obtain ⟨hsuffix, hbehind⟩ := h.behind a rest hrest
    refine ⟨hsuffix, fun m hm => ?_⟩
    rcases List.mem_cons.1 hm with rfl | hm
    · exact ⟨hsuffix, fun _ _ => htakes a rest hrest⟩
    · exact hbehind m hm

/-- An iteration that takes one token, and what follows it. -/
theorem token (l : Loop) (t : Token)
    {result : Except ParseError (α × List Token) × List Mark} (h : Orderly bound' ts result)
    (hbound : l.rank < bound) :
    Orderly bound (t :: ts) (result.1, ⟨some l, t :: ts⟩ :: result.2) := by
  have hlt := Nat.lt_succ_self ts.length
  have htaken : Orderly bound (t :: ts) (.ok ((), ts), [⟨some l, t :: ts⟩]) := by
    refine (unmarked () (List.suffix_cons t ts)).iteration (fun u rest hrest => ?_) hbound
    obtain ⟨-, rfl⟩ := Prod.mk.inj (Except.ok.inj hrest)
    exact hlt
  exact htaken.sequence h (Or.inr hlt)

end Orderly

end IdlBind
