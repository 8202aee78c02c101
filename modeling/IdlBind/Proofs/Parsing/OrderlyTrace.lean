import IdlBind.Proofs.Parsing.Trace

set_option autoImplicit false

/-! # Readers with orderly traces

A traced reader traces a reader if it is the reader once its trace is forgotten, and its trace is
orderly (`Traces`). This is closed under everything readers are composed with: a sequence needs its
second part within the bound only if the first may take nothing (`Traces.bind_of`), an iteration has
to take something (`Traces.iteration`), and what is read in terms of itself is read on fewer tokens
(`Traces.recursive`). -/

namespace IdlBind

/-! ## Readers that take something -/

namespace TokenParser

variable {α β : Type} {p : TokenParser α}

/-- A reader that goes forwards: it leaves a rear part of the tokens. -/
def Forward (p : TokenParser α) : Prop :=
  ∀ ⦃ts : List Token⦄ ⦃a : α⦄ ⦃rest : List Token⦄, p ts = .ok (a, rest) → rest <:+ ts

/-- A reader that takes something whenever it succeeds. -/
def Takes (p : TokenParser α) : Prop :=
  ∀ ⦃ts : List Token⦄ ⦃a : α⦄ ⦃rest : List Token⦄, p ts = .ok (a, rest) → rest.length < ts.length

/-- An item of a repetition that takes something whenever it gives something. -/
def Advances (p : TokenParser (Option α)) : Prop :=
  ∀ ⦃ts : List Token⦄ ⦃a : α⦄ ⦃rest : List Token⦄, p ts = .ok (some a, rest) →
    rest.length < ts.length

variable {n k : Nat}

theorem Local.forward (h : ∀ {N M}, Local id N M n k p p) : p.Forward := by
  intro ts a rest hp
  obtain ⟨front, hfront, -⟩ := (h (M := 0)).taken (Nat.lt_succ_self _) hp
  exact ⟨front, hfront.symm⟩

theorem Local.takes (h : ∀ {N M}, Local id N M n k p p) (hn : 1 ≤ n) : p.Takes := by
  intro ts a rest hp
  have hle := (h (M := 0)).length_le (Nat.lt_succ_self _) hp
  omega

theorem Forward.bind {q : α → TokenParser β} (hp : p.Forward) (hq : ∀ a, (q a).Forward) :
    Forward (p >>= q) := by
  intro ts b rest h
  obtain ⟨a, mid, hread, hrest⟩ := Parser.bind_eq_ok_iff.1 h
  exact (hq a hrest).trans (hp hread)

theorem Takes.bind {q : α → TokenParser β} (hp : p.Takes) (hq : ∀ a, (q a).Forward) :
    Takes (p >>= q) := by
  intro ts b rest h
  obtain ⟨a, mid, hread, hrest⟩ := Parser.bind_eq_ok_iff.1 h
  exact Nat.lt_of_le_of_lt (hq a hrest).length_le (hp hread)

theorem Forward.bind_takes {q : α → TokenParser β} (hp : p.Forward) (hq : ∀ a, (q a).Takes) :
    Takes (p >>= q) := by
  intro ts b rest h
  obtain ⟨a, mid, hread, hrest⟩ := Parser.bind_eq_ok_iff.1 h
  exact Nat.lt_of_lt_of_le (hq a hrest) (hp hread).length_le

/-- A wanted token is taken. -/
theorem Accepts.advances {p : TokenParser (Option α)} {f : TokenKind → Option (Option α)}
    (h : Accepts p f none) : p.Advances := by
  intro ts a rest hp
  cases ts with
  | nil => exact absurd (h.nil.symm.trans hp) (by simp)
  | cons t ts =>
    rw [h.cons] at hp
    split at hp
    · obtain ⟨-, rfl⟩ := Prod.mk.inj (Except.ok.inj hp)
      exact Nat.lt_succ_self _
    · exact absurd hp (by simp)

end TokenParser

/-! ## Traces of readers -/

/-- The traced reader `x` does what the reader `p` does, and its trace is orderly. -/
structure Traces {α : Type} (bound : Nat) (x : Traced α) (p : TokenParser α) : Prop where
  run : x.run = p
  orderly : ∀ ts, Orderly bound ts (x ts)

namespace Traces

open TokenParser

variable {α β : Type} {bound bound' : Nat} {l : Loop} {x : Traced α} {p : TokenParser α}

theorem forward (h : Traces bound x p) : p.Forward := by
  intro ts a rest hp
  rw [← h.run] at hp
  exact ((h.orderly ts).behind a rest hp).1

theorem mono (h : Traces bound x p) (hle : bound ≤ bound') : Traces bound' x p :=
  ⟨h.run, fun ts => (h.orderly ts).mono hle⟩

theorem pure (a : α) : Traces bound (pure a) (pure a) :=
  ⟨rfl, fun ts => .unmarked a (List.suffix_refl ts)⟩

theorem step (h : p.Forward) : Traces bound (Traced.step p) p := by
  refine ⟨rfl, fun ts => ⟨⟨?_, List.pairwise_singleton _ _⟩, ?_, ?_⟩⟩
  · intro m hm
    obtain rfl := List.mem_singleton.1 hm
    exact List.suffix_refl _
  · intro m hm l hl
    obtain rfl := List.mem_singleton.1 hm
    exact nomatch hl
  · intro a rest hp
    refine ⟨h hp, fun m hm => ?_⟩
    obtain rfl := List.mem_singleton.1 hm
    exact ⟨h hp, nofun⟩

/-- In a sequence, the bound of the second part does not count if the first part takes
    something. -/
theorem bind_of {f : α → Traced β} {q : α → TokenParser β} (hx : Traces bound x p)
    (hf : ∀ a, Traces bound' (f a) (q a)) (hbound : bound' ≤ bound ∨ p.Takes) :
    Traces bound (x >>= f) (p >>= q) := by
  have hbind : ∀ ts, (x >>= f) ts = x.bind f ts := fun _ => rfl
  constructor
  · funext ts
    have hp : p ts = (x ts).1 := (congrFun hx.run ts).symm
    rw [Parser.bind_apply, hp]
    show ((x >>= f) ts).1 = _
    rw [hbind, Traced.bind]
    rcases x ts with ⟨e | ⟨a, rest⟩, marks⟩
    · rfl
    · exact congrFun (hf a).run rest
  · intro ts
    have hts := hx.orderly ts
    have hp : p ts = (x ts).1 := (congrFun hx.run ts).symm
    rw [hbind, Traced.bind]
    rcases hresult : x ts with ⟨e | ⟨a, rest⟩, marks⟩
    · rw [hresult] at hts
      exact hts.failed
    · rw [hresult] at hts hp
      exact hts.sequence ((hf a).orderly rest) (hbound.imp_right fun htakes => htakes hp)

theorem bind {f : α → Traced β} {q : α → TokenParser β} (hx : Traces bound x p)
    (hf : ∀ a, Traces bound (f a) (q a)) : Traces bound (x >>= f) (p >>= q) :=
  hx.bind_of hf (Or.inl (Nat.le_refl _))

theorem bind_taking {f : α → Traced β} {q : α → TokenParser β} (hx : Traces bound x p)
    (htakes : p.Takes) (hf : ∀ a, Traces bound' (f a) (q a)) : Traces bound (x >>= f) (p >>= q) :=
  hx.bind_of hf (Or.inr htakes)

theorem failing (h : ∀ ts a rest, p ts ≠ .ok (a, rest)) : Traces bound (Traced.step p) p :=
  step fun ts a rest hp => absurd hp (h ts a rest)

theorem look (f : List Token → α) :
    Traces bound (Traced.step fun ts => .ok (f ts, ts)) (fun ts => .ok (f ts, ts)) := by
  refine step fun ts a rest h => ?_
  obtain ⟨-, rfl⟩ := Prod.mk.inj (Except.ok.inj h)
  exact List.suffix_refl _

theorem stepLocal {n k : Nat} (h : ∀ {N M}, Local id N M n k p p) :
    Traces bound (Traced.step p) p := step (Local.forward h)

/-- Behind a step that takes something, every bound will do. -/
theorem stepTaking {n k m : Nat} {f : α → Traced β} {q : α → TokenParser β}
    (h : ∀ {N M}, Local id N M n k p p) (hn : 1 ≤ n) (hf : ∀ a, Traces m (f a) (q a)) :
    Traces bound (Traced.step p >>= f) (p >>= q) :=
  (stepLocal h).bind_taking (Local.takes h hn) hf

theorem map (f : α → β) (hx : Traces bound x p) : Traces bound (f <$> x) (f <$> p) := by
  rw [map_eq_pure_bind (m := TokenParser)]
  exact hx.bind fun a => .pure (f a)

theorem ite {c : Prop} [Decidable c] {y : Traced α} {q : TokenParser α}
    (hx : c → Traces bound x p) (hy : ¬c → Traces bound y q) :
    Traces bound (if c then x else y) (if c then p else q) := by
  by_cases hc : c
  · rw [if_pos hc, if_pos hc]
    exact hx hc
  · rw [if_neg hc, if_neg hc]
    exact hy hc

/-! ### Loops -/

/-- Within an iteration, only loops of lower rank start before anything is taken. -/
theorem iteration (hx : Traces bound x p) (htakes : p.Takes)
    (hrank : bound ≤ l.rank ∧ l.rank < bound') : Traces bound' (Traced.iteration l x) p := by
  refine ⟨hx.run, fun ts => ?_⟩
  refine ((hx.orderly ts).mono hrank.1).iteration (fun a rest h => ?_) hrank.2
  have hp : p ts = .ok (a, rest) := hx.run ▸ h
  exact htakes hp

theorem stepIteration {p : TokenParser (Option α)} (hforward : p.Forward) (hadvances : p.Advances)
    (hbound : l.rank < bound) : Traces bound (Traced.stepIteration l p) p := by
  constructor
  · funext ts
    unfold Traced.run Traced.stepIteration
    rcases p ts with e | ⟨_ | a, rest⟩ <;> rfl
  · intro ts
    have hstep : Orderly bound ts (p ts, [⟨none, ts⟩]) := (step hforward).orderly ts
    unfold Traced.stepIteration
    rcases hp : p ts with e | ⟨_ | a, rest⟩
    · rwa [hp] at hstep
    · rwa [hp] at hstep
    · refine (Orderly.unmarked (some a) (hforward hp)).iteration (fun b out h => ?_) hbound
      obtain ⟨-, rfl⟩ := Prod.mk.inj (Except.ok.inj h)
      exact hadvances hp

theorem many {item : Traced (Option α)} {p : TokenParser (Option α)} (h : Traces bound item p) :
    Traces bound (Traced.many item) (Parser.many p) := by
  refine ⟨by rw [Traced.run_many, h.run], fun ts => ?_⟩
  show Orderly bound ts (Traced.manyFrom item ts)
  have horderly := h.orderly
  fun_induction Traced.manyFrom item ts with
  | case1 ts e marks hread =>
    have hts := hread ▸ horderly ts
    exact hts.failed
  | case2 ts rest marks hread =>
    have hts := hread ▸ horderly ts
    exact hts.map fun _ => []
  | case3 ts a rest marks hread hlt ih =>
    have hts := hread ▸ horderly ts
    exact hts.sequence (ih.map fun as => a :: as) (Or.inl (Nat.le_refl _))
  | case4 ts a rest marks hread hlt =>
    have hts := hread ▸ horderly ts
    exact hts.map fun _ => [a]

/-- A reader described in terms of itself, provided that its description does what it should as soon
    as what stands for the reader in it does. -/
theorem recursive {stuck : ParseError} {body : Traced α → Traced α}
    {body' : TokenParser α → TokenParser α} (htakes : Takes (Parser.recursive stuck body'))
    (h : ∀ {x p}, Traces bound x p → p.Takes → Traces l.rank (body x) (body' p))
    (hbound : l.rank < bound) :
    Traces bound (Traced.recursive l stuck body) (Parser.recursive stuck body') := by
  suffices hfrom : ∀ ts, (Traced.recursiveFrom l stuck body ts).1 = Parser.recursive stuck body' ts ∧
      Orderly bound ts (Traced.recursiveFrom l stuck body ts) from
    ⟨funext fun ts => (hfrom ts).1, fun ts => (hfrom ts).2⟩
  intro ts
  induction hn : ts.length using Nat.strongRecOn generalizing ts with
  | ind n ih =>
    -- inside the description the reader is used on fewer tokens
    have hinner : Traces bound (fun rest => if rest.length < ts.length then
        Traced.recursiveFrom l stuck body rest else (.error stuck, []))
        (Parser.guarded stuck body' ts) := by
      constructor
      · funext rest
        show (if rest.length < ts.length then Traced.recursiveFrom l stuck body rest
          else (.error stuck, [])).1 = Parser.guarded stuck body' ts rest
        unfold Parser.guarded
        by_cases hlt : rest.length < ts.length
        · rw [if_pos hlt, if_pos hlt]
          exact (ih rest.length (hn ▸ hlt) rest rfl).1
        · rw [if_neg hlt, if_neg hlt]
      · intro rest
        show Orderly bound rest (if rest.length < ts.length then
          Traced.recursiveFrom l stuck body rest else (.error stuck, []))
        by_cases hlt : rest.length < ts.length
        · rw [if_pos hlt]
          exact (ih rest.length (hn ▸ hlt) rest rfl).2
        · rw [if_neg hlt]
          exact ⟨.nil rest, nofun, nofun⟩
    have hguarded : Takes (Parser.guarded stuck body' ts) := by
      intro us a rest hread
      unfold Parser.guarded at hread
      split at hread
      · exact htakes hread
      · exact absurd hread (by simp)
    have hbody := h hinner hguarded
    have hrun : (Traced.recursiveFrom l stuck body ts).1 = Parser.recursive stuck body' ts := by
      rw [Traced.recursiveFrom, Parser.recursive_apply]
      exact congrFun hbody.run ts
    refine ⟨hrun, ?_⟩
    rw [Traced.recursiveFrom] at hrun ⊢
    exact (hbody.orderly ts).iteration (fun a rest hread => htakes (hrun.symm.trans hread)) hbound

/-! ### Lists and groups -/

theorem separated {y : Traced α} {p : TokenParser α} (hx : Traces bound x p)
    (hy : Traces bound y p) : Traces bound (Traced.separated x y) (TokenParser.separated p) := by
  have hitem : Traces bound (Traced.commaItem y) (TokenParser.commaItem p) := by
    refine (stepLocal (acceptPunct_local ',')).bind fun isMore => ?_
    exact ite (fun _ => hy.map some) fun _ => .pure none
  exact hx.bind fun a => hitem.many.bind fun others => .pure (a, others)

/-- What is left behind a group or a statement is `close`, and the trace of finding it is orderly. -/
structure Closes (ts : List Token) (traced : Except ParseError (List Token) × List Mark)
    (close : Except ParseError (List Token)) : Prop where
  run : traced.1 = close
  orderly : Orderly 1 ts (traced.1.map fun rest => ((), rest), traced.2)

namespace Closes

variable {t : Token} {ts : List Token}

theorem eof (l : Loop) (e : ParseError) (hrank : l.rank = 0) :
    Closes [] (.error e, [⟨some l, []⟩]) (.error e) := by
  have hnone : Orderly l.rank [] ((.error e : Except ParseError (Unit × List Token)), []) :=
    ⟨.nil [], nofun, nofun⟩
  exact ⟨rfl, hnone.iteration nofun (by omega)⟩

theorem ok (ts : List Token) : Closes ts (.ok ts, []) (.ok ts) :=
  ⟨rfl, .unmarked () (List.suffix_refl ts)⟩

theorem token {traced : Except ParseError (List Token) × List Mark}
    {close : Except ParseError (List Token)} (h : Closes ts traced close) (l : Loop)
    (hrank : l.rank = 0) : Closes (t :: ts) (traced.1, ⟨some l, t :: ts⟩ :: traced.2) close :=
  ⟨h.run, h.orderly.token l t (by omega)⟩

end Closes

theorem ofCloses {traced : List Token → Except ParseError (List Token) × List Mark}
    {close : List Token → Except ParseError (List Token)}
    (h : ∀ ts, Closes ts (traced ts) (close ts)) :
    Traces 1 (fun ts => ((traced ts).1.map fun rest => ((), rest), (traced ts).2))
      (fun ts => (close ts).map fun rest => ((), rest)) :=
  ⟨funext fun ts => congrArg (Except.map _) (h ts).run, fun ts => (h ts).orderly⟩

theorem closeGroup (opening closing : Char) (depth : Nat) (ts : List Token) :
    Closes ts (Traced.closeGroup opening closing depth ts)
      (TokenParser.closeGroup opening closing depth ts) := by
  fun_induction TokenParser.closeGroup opening closing depth ts with
  | case1 ts =>
    rw [Traced.closeGroup]
    exact .ok ts
  | case2 depth => exact .eof .skippedGroup _ rfl
  | case3 depth t ts hopening ih =>
    simp only [Traced.closeGroup, if_pos hopening]
    exact ih.token .skippedGroup rfl
  | case4 depth t ts hopening hclosing ih =>
    simp only [Traced.closeGroup, if_neg hopening, if_pos hclosing]
    exact ih.token .skippedGroup rfl
  | case5 depth t ts hopening hclosing ih =>
    simp only [Traced.closeGroup, if_neg hopening, if_neg hclosing]
    exact ih.token .skippedGroup rfl

theorem skipGroup (opening closing : Char) :
    Traces bound (Traced.skipGroup opening closing) (TokenParser.skipGroup opening closing) := by
  refine stepTaking (m := 1) (expectPunct_local opening) (Nat.le_refl 1) fun _ => ?_
  exact ofCloses (closeGroup opening closing 1)

theorem closeStatement (depth : Nat) (ts : List Token) :
    Closes ts (Traced.closeStatement depth ts) (TokenParser.closeStatement depth ts) := by
  fun_induction TokenParser.closeStatement depth ts with
  | case1 depth => exact .eof .skippedStatement _ rfl
  | case2 depth t ts hopens ih =>
    simp only [Traced.closeStatement, if_pos hopens]
    exact ih.token .skippedStatement rfl
  | case3 depth t ts hopens hcloses ih =>
    simp only [Traced.closeStatement, if_neg hopens, if_pos hcloses]
    exact ih.token .skippedStatement rfl
  | case4 depth t ts hopens hcloses hend =>
    simp only [Traced.closeStatement, if_neg hopens, if_neg hcloses, if_pos hend]
    exact (Closes.ok ts).token .skippedStatement rfl
  | case5 depth t ts hopens hcloses hend ih =>
    simp only [Traced.closeStatement, if_neg hopens, if_neg hcloses, if_neg hend]
    exact ih.token .skippedStatement rfl

theorem skipStatement : Traces 1 Traced.skipStatement TokenParser.skipStatement :=
  ofCloses (closeStatement 0)

end Traces

/-! ## Whole runs -/

/-- A whole run is a repetition whose last iteration takes nothing. -/
theorem Traces.ordered_many {α : Type} {l : Loop} {item : Traced (Option α)}
    {p : TokenParser (Option α)} {n : Nat} (h : Traces n item p) (hrank : n ≤ l.rank)
    (hadvances : p.Advances) (ts : List Token) :
    Ordered ts (Traced.many (Traced.iteration l item) ts).2 := by
  have horderly : ∀ ts, Orderly l.rank ts (item ts) := fun ts => (h.orderly ts).mono hrank
  have hordered : ∀ {ts result marks}, Traced.iteration l item ts = (result, marks) →
      Ordered ts marks := by
    intro ts result marks hread
    obtain ⟨-, rfl⟩ := Prod.mk.inj hread
    exact (horderly ts).ordered_iteration
  have hitem : ∀ {ts a rest marks}, Traced.iteration l item ts = (.ok (some a, rest), marks) →
      rest.length < ts.length ∧ Orderly (l.rank + 1) ts (.ok (some a, rest), marks) := by
    intro ts a rest marks hread
    have hrun : (item ts).1 = .ok (some a, rest) := congrArg Prod.fst hread
    have hlt : rest.length < ts.length := hadvances ((congrFun h.run ts).symm.trans hrun)
    refine ⟨hlt, hread ▸ (horderly ts).iteration (fun b out hout => ?_) (Nat.lt_succ_self _)⟩
    obtain ⟨-, rfl⟩ := Prod.mk.inj (Except.ok.inj (hrun.symm.trans hout))
    exact hlt
  -- the last iteration may take nothing, so that nothing need lie behind it
  show Ordered ts (Traced.manyFrom _ ts).2
  fun_induction Traced.manyFrom (Traced.iteration l item) ts with
  | case1 ts e marks hread => exact hordered hread
  | case2 ts rest marks hread => exact hordered hread
  | case3 ts a rest marks hread hlt ih =>
    obtain ⟨-, hread⟩ := hitem hread
    obtain ⟨hrest, hbehind⟩ := hread.behind (some a) rest rfl
    exact hread.ordered.append ih hrest hbehind
  | case4 ts a rest marks hread hlt => exact absurd (hitem hread).1 hlt

end IdlBind
