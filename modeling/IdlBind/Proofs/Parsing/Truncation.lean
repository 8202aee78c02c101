import IdlBind.Proofs.Parsing.Grammar
import IdlBind.Proofs.Parsing.Steps

set_option autoImplicit false

/-! # Tokens in front of a cut

What a parser makes of tokens in front of a cut if it succeeds with the tokens behind the cut. It
does the same in front of the cut, or it meets the end there: then it finds nothing more, or it
lacks a token (`CutAt`). A parser that finds less than it would have found goes on at the end, where
what comes next must not complain about anything but the end (`CutAt.bind`). -/

namespace IdlBind.TokenParser

open IdlBind.Parser

variable {α β : Type} {p : TokenParser α} {front rest out : List Token}

/-! ## At the end -/

/-- Without tokens the parser succeeds, or it lacks one. -/
def MeetsEnd (p : TokenParser α) : Prop :=
  (∃ a, p [] = .ok (a, [])) ∨ ∃ expected, p [] = .error (.unexpectedEof expected)

namespace MeetsEnd

theorem found {a : α} (h : p [] = .ok (a, [])) : MeetsEnd p := .inl ⟨a, h⟩

theorem missing (expected : Expectation) (h : p [] = .error (.unexpectedEof expected)) :
    MeetsEnd p := .inr ⟨expected, h⟩

theorem bind_found {a : α} {f : α → TokenParser β} (h : p [] = .ok (a, []))
    (hf : MeetsEnd (f a)) : MeetsEnd (p >>= f) := by
  unfold MeetsEnd at hf ⊢
  rwa [bind_apply_of_ok h]

theorem bind_missing {expected : Expectation} (h : p [] = .error (.unexpectedEof expected))
    (f : α → TokenParser β) : MeetsEnd (p >>= f) :=
  missing expected (bind_eq_error h f)

theorem map (h : MeetsEnd p) (f : α → β) : MeetsEnd (f <$> p) := by
  rw [map_eq_pure_bind]
  rcases h with ⟨a, h⟩ | ⟨expected, h⟩
  · exact bind_found h (found rfl)
  · exact bind_missing h _

theorem bind_pure (h : MeetsEnd p) (f : α → β) : MeetsEnd (p >>= fun a => pure (f a)) := by
  rw [← map_eq_pure_bind]
  exact h.map f

theorem ite {c : Prop} [Decidable c] {q : TokenParser α} (hp : MeetsEnd p) (hq : MeetsEnd q) :
    MeetsEnd (if c then p else q) := by
  by_cases hc : c
  · rwa [if_pos hc]
  · rwa [if_neg hc]

theorem many {item : TokenParser (Option α)} (h : MeetsEnd item) : MeetsEnd (Parser.many item) := by
  rcases h with ⟨_ | a, h⟩ | ⟨expected, h⟩
  · exact found (many_eq_nil h)
  · exact found (many_eq_singleton h (Nat.lt_irrefl _))
  · exact missing expected (many_eq_error h)

end MeetsEnd

/-! ## In front of a cut -/

/-- In front of a cut, a parser that otherwise gives `a` and leaves `out` gives `a` as well and
    leaves what stands in front of the cut, or it comes to the end and gives something, or it lacks
    a token. -/
inductive Truncated (front rest out : List Token) (a : α) :
    Except ParseError (α × List Token) → Prop
  | same {mid : List Token} (hmid : mid <:+ front) (hout : out = mid ++ rest) :
    Truncated front rest out a (.ok (a, mid))
  | ended (b : α) : Truncated front rest out a (.ok (b, []))
  | missing (expected : Expectation) :
    Truncated front rest out a (.error (.unexpectedEof expected))

/-- Cutting off `rest` truncates what the parser makes of `front ++ rest`, provided that it leaves
    `out` of that. -/
def CutAt (rest : List Token) (p : TokenParser α) (front out : List Token) : Prop :=
  ∀ a, p (front ++ rest) = .ok (a, out) → Truncated front rest out a (p front)

/-- In front of a cut the parser does what it otherwise does, or lacks a token. -/
def KeptAt (rest : List Token) (p : TokenParser α) (front : List Token) : Prop :=
  ∀ a out, p (front ++ rest) = .ok (a, out) →
    (∃ mid, mid <:+ front ∧ out = mid ++ rest ∧ p front = .ok (a, mid)) ∨
      ∃ expected, p front = .error (.unexpectedEof expected)

theorem Truncated.of_suffix {a : α} {mid : List Token}
    {outcome : Except ParseError (α × List Token)} (h : Truncated mid rest out a outcome)
    (hmid : mid <:+ front) : Truncated front rest out a outcome := by
  cases h with
  | same hmid' hout => exact .same (hmid'.trans hmid) hout
  | ended b => exact .ended b
  | missing expected => exact .missing expected

theorem MeetsEnd.truncated (h : MeetsEnd p) (a : α) : Truncated front rest out a (p []) := by
  rcases h with ⟨b, h⟩ | ⟨expected, h⟩
  · rw [h]
    exact .ended b
  · rw [h]
    exact .missing expected

theorem MeetsEnd.cutAt (h : MeetsEnd p) : CutAt rest p [] out := fun a _ => h.truncated a

namespace KeptAt

theorem cutAt (h : KeptAt rest p front) : CutAt rest p front out := by
  intro a hp
  rcases h a out hp with ⟨mid, hmid, hout, hfront⟩ | ⟨expected, hfront⟩
  · rw [hfront]
    exact .same hmid hout
  · rw [hfront]
    exact .missing expected

theorem pure (a : α) : KeptAt rest (pure a) front := by
  intro b out h
  obtain ⟨rfl, rfl⟩ := Prod.mk.inj (Except.ok.inj h)
  exact .inl ⟨front, List.suffix_refl front, rfl, rfl⟩

theorem bind {f : α → TokenParser β} (hp : KeptAt rest p front)
    (hf : ∀ a mid, p (front ++ rest) = .ok (a, mid ++ rest) → KeptAt rest (f a) mid) :
    KeptAt rest (p >>= f) front := by
  intro b out h
  obtain ⟨a, mid, hpa, hfa⟩ := bind_eq_ok_iff.1 h
  rcases hp a mid hpa with ⟨mid, hmid, rfl, hfront⟩ | ⟨expected, hfront⟩
  · rw [bind_apply_of_ok hfront]
    rcases hf a mid hpa b out hfa with ⟨mid', hmid', hout, hkept⟩ | hmissing
    · exact .inl ⟨mid', hmid'.trans hmid, hout, hkept⟩
    · exact .inr hmissing
  · exact .inr ⟨expected, bind_eq_error hfront f⟩

theorem map (hp : KeptAt rest p front) (f : α → β) : KeptAt rest (f <$> p) front := by
  rw [map_eq_pure_bind]
  exact hp.bind fun a _ _ => pure (f a)

/-- Behind a parser that never stops early, anything may follow. -/
theorem bind_cutAt {f : α → TokenParser β} (hp : KeptAt rest p front)
    (hf : ∀ a mid, p (front ++ rest) = .ok (a, mid ++ rest) → mid <:+ front →
      CutAt rest (f a) mid out) : CutAt rest (p >>= f) front out := by
  intro b h
  obtain ⟨a, mid, hpa, hfa⟩ := bind_eq_ok_iff.1 h
  rcases hp a mid hpa with ⟨mid, hmid, rfl, hfront⟩ | ⟨expected, hfront⟩
  · rw [bind_apply_of_ok hfront]
    exact (hf a mid hpa hmid b hfa).of_suffix hmid
  · rw [bind_apply, hfront]
    exact .missing expected

end KeptAt

namespace CutAt

/-- If the first part comes to the end, the second part starts there. -/
theorem bind {f : α → TokenParser β} (hp : ∀ mid, CutAt rest p front mid)
    (hf : ∀ a mid, p (front ++ rest) = .ok (a, mid ++ rest) → mid <:+ front →
      CutAt rest (f a) mid out)
    (hend : ∀ a, MeetsEnd (f a)) : CutAt rest (p >>= f) front out := by
  intro b h
  obtain ⟨a, mid, hpa, hfa⟩ := bind_eq_ok_iff.1 h
  have hcut := hp mid a hpa
  rw [bind_apply]
  generalize p front = outcome at hcut
  cases hcut with
  | @same mid' hmid hout =>
    subst hout
    exact (hf a mid' hpa hmid b hfa).of_suffix hmid
  | ended a' => exact (hend a').truncated b
  | missing expected => exact .missing expected

theorem map (hp : CutAt rest p front out) (f : α → β) : CutAt rest (f <$> p) front out := by
  intro b h
  obtain ⟨a, rfl, hpa⟩ := map_eq_ok_iff.1 h
  have hcut := hp a hpa
  rw [map_apply]
  generalize p front = outcome at hcut
  cases hcut with
  | same hmid hout => exact .same hmid hout
  | ended b => exact .ended (f b)
  | missing expected => exact .missing expected

theorem bind_pure (hp : CutAt rest p front out) (f : α → β) :
    CutAt rest (p >>= fun a => pure (f a)) front out := by
  rw [← map_eq_pure_bind]
  exact hp.map f

theorem ite {c : Prop} [Decidable c] {q : TokenParser α} (hp : c → CutAt rest p front out)
    (hq : ¬c → CutAt rest q front out) : CutAt rest (if c then p else q) front out := by
  by_cases hc : c
  · rw [if_pos hc]
    exact hp hc
  · rw [if_neg hc]
    exact hq hc

/-- A look at the next token shows the same unless the cut is right in front of it. -/
theorem look {check : TokenParser α} {f : Option Token → α} {k : α → TokenParser β}
    (hcheck : ∀ ts, check ts = .ok (f ts.head?, ts)) (hend : MeetsEnd (k (f none)))
    (hk : CutAt rest (k (f (front ++ rest).head?)) front out) :
    CutAt rest (check >>= k) front out := by
  cases front with
  | nil => exact (MeetsEnd.bind_found (hcheck []) hend).cutAt
  | cons t front =>
    intro b h
    rw [bind_apply_of_ok (hcheck _)] at h ⊢
    exact hk b h

theorem accept {f : TokenKind → Option α} {other : α} (h : Accepts p f other) :
    CutAt rest p front out := by
  cases front with
  | nil => exact (MeetsEnd.found h.nil).cutAt
  | cons t front =>
    intro a hp
    rw [List.cons_append, h.cons] at hp
    rw [h.cons]
    split at hp
    · obtain ⟨rfl, rfl⟩ := Prod.mk.inj (Except.ok.inj hp)
      exact .same (List.suffix_cons t front) rfl
    · obtain ⟨rfl, rfl⟩ := Prod.mk.inj (Except.ok.inj hp)
      exact .same (List.suffix_refl _) rfl

end CutAt

theorem KeptAt.expect {f : TokenKind → Option α} {expected : Expectation}
    (h : Expects p f expected) : KeptAt rest p front := by
  intro a out hp
  cases front with
  | nil => exact .inr ⟨expected, h.nil⟩
  | cons t front =>
    rw [List.cons_append, h.cons] at hp
    rw [h.cons]
    split at hp
    · obtain ⟨rfl, rfl⟩ := Prod.mk.inj (Except.ok.inj hp)
      exact .inl ⟨front, List.suffix_cons t front, rfl, rfl⟩
    · exact absurd hp (by simp)

/-- What a cut leaves of a success. -/
theorem CutAt.outcome (hcut : ∀ out, CutAt rest p front out)
    (h : (p (front ++ rest)).map (fun _ => ()) = .ok ()) : (p front).map (fun _ => ()) = .ok () ∨
      ∃ expected, (p front).map (fun _ => ()) = .error (.unexpectedEof expected) := by
  obtain ⟨⟨a, out⟩, hp, -⟩ := exists_of_map_eq_ok h
  have htruncated := hcut out a hp
  generalize p front = outcome at htruncated
  cases htruncated with
  | same => exact .inl rfl
  | ended => exact .inl rfl
  | missing expected => exact .inr ⟨expected, rfl⟩

/-! ## Repetition -/

section

variable {item : TokenParser (Option α)} {P : List Token → Prop}

/-- A repetition that meets the end goes on there. -/
theorem MeetsEnd.many_of_ended (hend : MeetsEnd item) {found? : Option α}
    (h : item front = .ok (found?, [])) (as : List α) :
    Truncated front rest out as (Parser.many item front) := by
  cases found? with
  | none =>
    rw [many_eq_nil h]
    exact .ended []
  | some a =>
    cases front with
    | nil =>
      rw [many_eq_singleton h (Nat.lt_irrefl _)]
      exact .ended [a]
    | cons t front =>
      rcases hend.many with ⟨found, hmany⟩ | ⟨expected, hmany⟩
      · rw [many_cons h (Nat.zero_lt_succ _) hmany]
        exact .ended (a :: found)
      · rw [many_cons_eq_error h (Nat.zero_lt_succ _) hmany]
        exact .missing expected

/-- The items of a repetition are cut off where the repetition is, one after the other. -/
theorem CutAt.many (hitem : ∀ {front}, P (front ++ rest) → ∀ mid, CutAt rest item front mid)
    (hnext : ∀ {ts us a}, P ts → item ts = .ok (some a, us) → P us) (hend : MeetsEnd item)
    (hP : P (front ++ rest)) : CutAt rest (Parser.many item) front out := by
  intro as h
  rw [many_eq_ok_iff] at h
  generalize hts : front ++ rest = ts at h hP
  fun_induction collect item ts generalizing front as with
  | case1 ts e hread => exact absurd (Prod.mk.inj h).2 (by simp)
  | case2 ts mid hread =>
    obtain ⟨rfl, hmid⟩ := Prod.mk.inj h
    obtain rfl := Except.ok.inj hmid
    subst hts
    have hcut := hitem hP mid none hread
    generalize hfront : item front = outcome at hcut
    cases hcut with
    | same hmid hout =>
      rw [many_eq_nil hfront]
      exact .same hmid hout
    | ended found? => exact hend.many_of_ended hfront []
    | missing expected =>
      rw [many_eq_error hfront]
      exact .missing expected
  | case3 ts a mid hread hlt found outcome hmore ih =>
    obtain ⟨rfl, rfl⟩ := Prod.mk.inj h
    subst hts
    have hcut := hitem hP mid (some a) hread
    generalize hfront : item front = outcome at hcut
    cases hcut with
    | @same mid' hmid hout =>
      subst hout
      have hlt' : mid'.length < front.length := by simpa using hlt
      have hmany := (ih found rfl hmore (hnext hP hread)).of_suffix hmid
      generalize hmid' : Parser.many item mid' = outcome at hmany
      cases hmany with
      | same hmid hout =>
        rw [many_cons hfront hlt' hmid']
        exact .same hmid hout
      | ended found' =>
        rw [many_cons hfront hlt' hmid']
        exact .ended (a :: found')
      | missing expected =>
        rw [many_cons_eq_error hfront hlt' hmid']
        exact .missing expected
    | ended found? => exact hend.many_of_ended hfront _
    | missing expected =>
      rw [many_eq_error hfront]
      exact .missing expected
  | case4 ts a mid hread hlt =>
    obtain ⟨rfl, hout⟩ := Prod.mk.inj h
    obtain rfl := Except.ok.inj hout
    subst hts
    have hcut := hitem hP mid (some a) hread
    generalize hfront : item front = outcome at hcut
    cases hcut with
    | @same mid' hmid hout =>
      subst hout
      have hlt' : ¬mid'.length < front.length := by simpa using hlt
      rw [many_eq_singleton hfront hlt']
      exact .same hmid rfl
    | ended found? => exact hend.many_of_ended hfront _
    | missing expected =>
      rw [many_eq_error hfront]
      exact .missing expected

end

/-! ## Steps of both readers -/

theorem skip_cutAt : CutAt rest skip front out := by
  cases front with
  | nil => exact (MeetsEnd.found (a := ()) rfl).cutAt
  | cons t front =>
    intro a h
    obtain ⟨rfl, rfl⟩ := Prod.mk.inj (Except.ok.inj h)
    exact .same (List.suffix_cons t front) rfl

/-- What is left behind a group or a statement that is skipped, in front of a cut. -/
def ClosesAt (rest : List Token) (close : List Token → Except ParseError (List Token))
    (front : List Token) : Prop :=
  ∀ out, close (front ++ rest) = .ok out →
    (∃ mid, mid <:+ front ∧ out = mid ++ rest ∧ close front = .ok mid) ∨
      ∃ expected, close front = .error (.unexpectedEof expected)

theorem ClosesAt.cons {close close' : List Token → Except ParseError (List Token)} {t : Token}
    (h : ClosesAt rest close' front) (hclose : ∀ ts, close (t :: ts) = close' ts) :
    ClosesAt rest close (t :: front) := by
  intro out hout
  rw [List.cons_append, hclose] at hout
  rw [hclose]
  rcases h out hout with ⟨mid, hmid, hrest, hfront⟩ | hmissing
  · exact .inl ⟨mid, hmid.trans (List.suffix_cons t front), hrest, hfront⟩
  · exact .inr hmissing

theorem ClosesAt.keptAt {close : List Token → Except ParseError (List Token)}
    (h : ClosesAt rest close front) :
    KeptAt rest (fun ts => (close ts).map fun rest => ((), rest)) front := by
  intro a out hmap
  dsimp only at hmap ⊢
  obtain ⟨out', hclose, hpair⟩ := exists_of_map_eq_ok hmap
  obtain rfl := (Prod.mk.inj hpair).2
  rcases h out' hclose with ⟨mid, hmid, hout, hfront⟩ | ⟨expected, hfront⟩
  · exact .inl ⟨mid, hmid, hout, by rw [hfront]; rfl⟩
  · exact .inr ⟨expected, by rw [hfront]; rfl⟩

theorem closesAt_closeGroup (opening closing : Char) (depth : Nat) :
    ClosesAt rest (closeGroup opening closing depth) front := by
  induction front generalizing depth with
  | nil =>
    intro out h
    cases depth with
    | zero =>
      rw [closeGroup] at h
      exact .inl ⟨[], List.suffix_refl _, (Except.ok.inj h).symm, by rw [closeGroup]⟩
    | succ depth => exact .inr ⟨.punct closing, by rw [closeGroup]⟩
  | cons t front ih =>
    cases depth with
    | zero =>
      intro out h
      rw [closeGroup] at h
      exact .inl ⟨t :: front, List.suffix_refl _, (Except.ok.inj h).symm, by rw [closeGroup]⟩
    | succ depth =>
      by_cases hopening : t.isPunct opening = true
      · exact (ih (depth + 2)).cons fun ts => by rw [closeGroup, if_pos hopening]
      · by_cases hclosing : t.isPunct closing = true
        · exact (ih depth).cons fun ts => by rw [closeGroup, if_neg hopening, if_pos hclosing]
        · exact (ih (depth + 1)).cons fun ts => by
            rw [closeGroup, if_neg hopening, if_neg hclosing]

theorem skipGroup_keptAt (opening closing : Char) :
    KeptAt rest (skipGroup opening closing) front :=
  (KeptAt.expect (expectPunct_expects opening)).bind fun _ _ _ =>
    (closesAt_closeGroup opening closing 1).keptAt

theorem closesAt_closeStatement (depth : Nat) : ClosesAt rest (closeStatement depth) front := by
  induction front generalizing depth with
  | nil => exact fun out _ => .inr ⟨.punct ';', by rw [closeStatement]⟩
  | cons t front ih =>
    by_cases hopens : opensBracket t = true
    · exact (ih (depth + 1)).cons fun ts => by rw [closeStatement, if_pos hopens]
    · by_cases hcloses : closesBracket t = true
      · exact (ih (depth - 1)).cons fun ts => by
          rw [closeStatement, if_neg hopens, if_pos hcloses]
      · by_cases hend : (t.isPunct ';' && depth == 0) = true
        · have hclose : ∀ ts, closeStatement depth (t :: ts) = .ok ts := fun ts => by
            rw [closeStatement, if_neg hopens, if_neg hcloses, if_pos hend]
          intro out h
          rw [List.cons_append, hclose] at h
          exact .inl ⟨front, List.suffix_cons t front, (Except.ok.inj h).symm, hclose front⟩
        · exact (ih depth).cons fun ts => by
            rw [closeStatement, if_neg hopens, if_neg hcloses, if_neg hend]

theorem skipStatement_keptAt : KeptAt rest skipStatement front :=
  (closesAt_closeStatement 0).keptAt

/-! ## Lists -/

section

variable {item : TokenParser α} {P : List Token → Prop}

/-- The items of a list are cut off where the list is. Further items stand behind commas. -/
theorem separated_cutAt (hitem : ∀ {front}, P (front ++ rest) → ∀ mid, CutAt rest item front mid)
    (hnext : ∀ {ts us a q}, P ts → item ts = .ok (a, ⟨.punct ',', q⟩ :: us) → P us)
    (hend : MeetsEnd item) (hP : P (front ++ rest)) : CutAt rest (separated item) front out := by
  have hcomma : MeetsEnd (commaItem item) := .bind_found (a := false) rfl (.found rfl)
  refine CutAt.bind (fun mid => hitem hP mid) (fun a mid hread _ => ?_)
    fun a => hcomma.many.bind_pure _
  -- behind an item another one may start behind a comma
  refine (CutAt.many (P := fun ts => ∀ {q us}, ts = ⟨.punct ',', q⟩ :: us → P us) ?_ ?_ hcomma
    ?_).bind_pure _
  · intro front hmore mid
    refine CutAt.bind (fun mid => .accept (acceptPunct_accepts ','))
      (fun isMore mid haccept _ => ?_) fun isMore => .ite (hend.map some) (.found rfl)
    refine .ite (fun hisMore => ?_) fun _ => (KeptAt.pure none).cutAt
    rcases acceptPunct_eq_ok_iff.1 haccept with ⟨-, q, hts⟩ | ⟨hnone, -, -⟩
    · exact (hitem (hmore hts) _).map some
    · exact absurd hisMore (by simp [hnone])
  · intro ts us a hmore hcommaItem q us' hus
    obtain ⟨q', mid', rfl, hread'⟩ := commaItem_eq_ok_some hcommaItem
    exact hnext (hmore rfl) (hus ▸ hread')
  · intro q us hmid
    exact hnext hP (hmid ▸ hread)

end

end IdlBind.TokenParser
