import IdlBind.Proofs.Parsing.Basic
import IdlBind.Proofs.Token.Relocation
import IdlBind.Token.Parser

set_option autoImplicit false

/-! # What a parser depends on

A parser over tokens is local if it looks only at the kinds of the tokens that it takes and of a few
tokens behind them. Then it does the same with the same tokens at other places, and in front of
everything that starts alike. Locality is closed under everything parsers are composed with; how
many tokens are taken and looked at adds up along a sequence (`Local.bind`). -/

namespace IdlBind

namespace TokenParser

open IdlBind.Parser

variable {α β : Type}

/-! ## What follows -/

/-- Two lists start alike for a parser that looks at `looked` tokens: it looks at the kind of the
    first one, and at the kind of the second one only behind an opening square bracket. -/
structure Alike (looked : Nat) (ts us : List Token) : Prop where
  head : 1 ≤ looked → ts.head?.map (·.kind) = us.head?.map (·.kind)
  second : 2 ≤ looked → ts.head?.any (·.isPunct '[') = true →
    ts.tail.head?.map (·.kind) = us.tail.head?.map (·.kind)

/-- The tokens at other places. -/
def moved (g : Position → Position) (ts : List Token) : List Token := ts.map (·.relocate g)

variable {g : Position → Position}

theorem isPunct_relocate (c : Char) (t : Token) : (t.relocate g).isPunct c = t.isPunct c := rfl

theorem brackets_relocate {t : Token} :
    opensBracket (t.relocate g) = opensBracket t ∧ closesBracket (t.relocate g) = closesBracket t :=
  ⟨rfl, rfl⟩

@[simp] theorem moved_nil : moved g [] = [] := rfl

@[simp] theorem moved_cons (t : Token) (ts : List Token) :
    moved g (t :: ts) = t.relocate g :: moved g ts := rfl

@[simp] theorem moved_append (ts us : List Token) : moved g (ts ++ us) = moved g ts ++ moved g us :=
  List.map_append

@[simp] theorem moved_id (ts : List Token) : moved id ts = ts := List.map_id ts

@[simp] theorem length_moved (ts : List Token) : (moved g ts).length = ts.length :=
  List.length_map ..

@[simp] theorem relocate_id (e : ParseError) : e.relocate id = e := by
  cases e <;> rfl

theorem any_head?_congr {ts us : List Token}
    (h : ts.head?.map (·.kind) = us.head?.map (·.kind)) (P : TokenKind → Bool) :
    ts.head?.any (P ·.kind) = us.head?.any (P ·.kind) := by
  have hmap : ∀ l : List Token, l.head?.any (P ·.kind) = (l.head?.map (·.kind)).any P := by
    intro l
    cases l <;> rfl
  rw [hmap, hmap, h]

namespace Alike

variable {k : Nat} {ts us : List Token}

theorem refl (k : Nat) (ts : List Token) : Alike k ts ts := ⟨fun _ => rfl, fun _ _ => rfl⟩

theorem zero (ts us : List Token) : Alike 0 ts us := ⟨by omega, by omega⟩

theorem mono {k' : Nat} (h : Alike k' ts us) (hle : k ≤ k') : Alike k ts us :=
  ⟨fun hk => h.head (by omega), fun hk => h.second (by omega)⟩

theorem moved (k : Nat) (ts : List Token) : Alike k ts (moved g ts) := by
  constructor
  · intro _
    cases ts <;> rfl
  · intro _ _
    rcases ts with _ | ⟨t, _ | ⟨t', ts⟩⟩ <;> rfl

/-- A token other than an opening square bracket is all that is looked at. -/
theorem cons {t t' : Token} (hkind : t.kind = t'.kind) (ht : t.isPunct '[' = false)
    (ts us : List Token) : Alike 2 (t :: ts) (t' :: us) :=
  ⟨fun _ => congrArg some hkind, fun _ hopening => absurd hopening (by simp [ht])⟩

/-- What is looked at in front of lists that start alike. -/
theorem append {n : Nat} {front : List Token} (hn : n ≤ front.length) (h : Alike k ts us) :
    Alike (n + k) (front ++ ts) (TokenParser.moved g front ++ us) := by
  rcases front with _ | ⟨t, _ | ⟨t', front⟩⟩
  · obtain rfl : n = 0 := Nat.le_zero.1 hn
    exact h.mono (by omega)
  · have hn : n ≤ 1 := hn
    exact ⟨fun _ => rfl, fun hk _ => h.head (by omega)⟩
  · exact ⟨fun _ => rfl, fun _ _ => rfl⟩

theorem append_left (front : List Token) (h : Alike k ts us) :
    Alike k (front ++ ts) (front ++ us) := by
  have hfront := h.append (g := id) (Nat.zero_le front.length)
  rwa [moved_id, Nat.zero_add] at hfront

/-- Behind a token that is the same, the first token is the same. -/
theorem of_front {front : List Token} (h : front ≠ []) (ts us : List Token) :
    Alike 1 (front ++ ts) (front ++ us) := by
  obtain ⟨t, front, rfl⟩ := List.exists_cons_of_ne_nil h
  exact ⟨fun _ => rfl, fun hk => absurd hk (by omega)⟩

theorem head?_any (h : Alike k ts us) (hk : 1 ≤ k) (P : TokenKind → Bool) :
    ts.head?.any (P ·.kind) = us.head?.any (P ·.kind) := any_head?_congr (h.head hk) P

theorem eq_nil (h : Alike k [] us) (hk : 1 ≤ k) : us = [] := by
  cases us with
  | nil => rfl
  | cons t us => exact absurd (h.head hk) (by simp)

theorem exists_cons {t : Token} (h : Alike k (t :: ts) us) (hk : 1 ≤ k) :
    ∃ t' us', us = t' :: us' ∧ t'.kind = t.kind := by
  cases us with
  | nil => exact absurd (h.head hk) (by simp)
  | cons t' us' => exact ⟨t', us', rfl, (Option.some.inj (h.head hk)).symm⟩

end Alike

/-! ## Wanted tokens -/

/-- Takes the next token if `f` gives a result for its kind; otherwise the result is `other`. -/
structure Accepts (p : TokenParser α) (f : TokenKind → Option α) (other : α) : Prop where
  nil : p [] = .ok (other, [])
  cons : ∀ t rest, p (t :: rest) = match f t.kind with
    | some a => .ok (a, rest)
    | none => .ok (other, t :: rest)

/-- Takes the next token, for whose kind `f` has to give a result. -/
structure Expects (p : TokenParser α) (f : TokenKind → Option α) (expected : Expectation) :
    Prop where
  nil : p [] = .error (unexpectedError expected [])
  cons : ∀ t rest, p (t :: rest) = match f t.kind with
    | some a => .ok (a, rest)
    | none => .error (unexpectedError expected (t :: rest))

/-! ## Local parsers -/

/-- On fewer than `bound` and `bound'` tokens, `q` does with the same tokens at other places what
    `p` does with the tokens. If that is a success, at least `taken` tokens are taken, and anything
    may follow that starts alike for `looked` tokens. -/
structure Local (g : Position → Position) (bound bound' taken looked : Nat) (p q : TokenParser α) :
    Prop where
  taken : ∀ {ts : List Token} {a : α} {rest : List Token}, ts.length < bound →
    p ts = .ok (a, rest) → ∃ front, ts = front ++ rest ∧ taken ≤ front.length
  ok : ∀ {front rest rest' : List Token} {a : α}, (front ++ rest).length < bound →
    (front ++ rest').length < bound' → Alike looked rest rest' →
      p (front ++ rest) = .ok (a, rest) → q (moved g front ++ rest') = .ok (a, rest')
  error : ∀ {ts : List Token} {e : ParseError}, ts.length < bound → ts.length < bound' →
    p ts = .error e → q (moved g ts) = .error (e.relocate g)

namespace Local

variable {N M n k : Nat} {p q : TokenParser α}

theorem mono {n' k' : Nat} (h : Local g N M n k p q) (hle : n' ≤ n ∧ k ≤ k') :
    Local g N M n' k' p q where
  taken := by
    intro ts a rest hts hp
    obtain ⟨front, hfront, hn⟩ := h.taken hts hp
    exact ⟨front, hfront, by omega⟩
  ok := fun hN hM halike => h.ok hN hM (halike.mono hle.2)
  error := h.error

theorem shorten {N' M' : Nat} (h : Local g N M n k p q) (hle : N' ≤ N ∧ M' ≤ M) :
    Local g N' M' n k p q where
  taken := fun hts => h.taken (by omega)
  ok := fun hN hM => h.ok (by omega) (by omega)
  error := fun hN hM => h.error (by omega) (by omega)

theorem length_le (h : Local g N M n k p q) {ts rest : List Token} {a : α} (hts : ts.length < N)
    (hp : p ts = .ok (a, rest)) : rest.length + n ≤ ts.length := by
  obtain ⟨front, rfl, hn⟩ := h.taken hts hp
  rw [List.length_append]
  omega

/-- A parser that may leave everything takes nothing for sure. -/
theorem eq_zero (h : Local g N M n k p q) {ts : List Token} {a : α} (hts : ts.length < N)
    (hp : p ts = .ok (a, ts)) : n = 0 := by
  have := h.length_le hts hp
  omega

/-- What is left at other places is what was left, at other places. -/
theorem ok_moved (h : Local g N M n k p q) {ts rest : List Token} {a : α} (hN : ts.length < N)
    (hM : ts.length < M) (hp : p ts = .ok (a, rest)) : q (moved g ts) = .ok (a, moved g rest) := by
  obtain ⟨front, rfl, -⟩ := h.taken hN hp
  rw [moved_append]
  rw [List.length_append] at hM
  exact h.ok hN (by simpa using hM) (.moved k rest) hp

/-- More tokens are taken than locality says if every success takes more. -/
theorem taking {n' : Nat} (h : Local g N M n k p q)
    (hn' : ∀ {ts : List Token} {a : α} {rest : List Token}, p ts = .ok (a, rest) →
      rest.length + n' ≤ ts.length) : Local g N M n' k p q where
  taken := by
    intro ts a rest hts hp
    obtain ⟨front, rfl, -⟩ := h.taken hts hp
    have := hn' hp
    rw [List.length_append] at this
    exact ⟨front, rfl, by omega⟩
  ok := h.ok
  error := h.error

theorem pure (a : α) : Local g N M 0 k (pure a) (pure a) where
  taken := by
    intro ts b rest _ h
    obtain ⟨rfl, rfl⟩ := Prod.mk.inj (Except.ok.inj h)
    exact ⟨[], rfl, Nat.le_refl _⟩
  ok := by
    intro front rest rest' b _ _ _ h
    obtain ⟨rfl, hrest⟩ := Prod.mk.inj (Except.ok.inj h)
    obtain rfl : front = [] := List.append_left_eq_self.1 hrest
    rfl
  error := by
    intro ts e _ _ h
    exact absurd h (by simp)

/-- A sequence takes what both parts take. What the first part looks at has to be among what the
    second takes and looks at. -/
theorem bind {l m j : Nat} {f f' : α → TokenParser β} (hp : Local g N M l j p q)
    (hle : n ≤ l + m ∧ j ≤ m + k) (hf : ∀ a, Local g (N - l) (M - l) m k (f a) (f' a)) :
    Local g N M n k (p >>= f) (q >>= f') where
  taken := by
    intro ts b rest hts h
    obtain ⟨a, mid, hpa, hfa⟩ := bind_eq_ok_iff.1 h
    obtain ⟨first, rfl, hfirst⟩ := hp.taken hts hpa
    rw [List.length_append] at hts
    obtain ⟨second, rfl, hsecond⟩ := (hf a).taken (by omega) hfa
    refine ⟨first ++ second, (List.append_assoc ..).symm, ?_⟩
    rw [List.length_append]
    omega
  ok := by
    intro front rest rest' b hN hM halike h
    obtain ⟨a, mid, hpa, hfa⟩ := bind_eq_ok_iff.1 h
    obtain ⟨first, hfront, hfirst⟩ := hp.taken hN hpa
    rw [hfront, List.length_append] at hN
    obtain ⟨second, rfl, hsecond⟩ := (hf a).taken (by omega) hfa
    rw [← List.append_assoc] at hfront
    obtain rfl := List.append_cancel_right hfront
    simp only [List.length_append] at hN hM
    rw [List.append_assoc] at hpa
    -- what the first part looks at was taken by the second or is left behind it
    have hlook : Alike j (second ++ rest) (moved g second ++ rest') :=
      (halike.append hsecond).mono hle.2
    have hq := hp.ok (by simp only [List.length_append]; omega)
      (by simp only [List.length_append, length_moved]; omega) hlook hpa
    rw [moved_append, List.append_assoc, bind_apply_of_ok hq]
    exact (hf a).ok (by rw [List.length_append]; omega) (by rw [List.length_append]; omega)
      halike hfa
  error := by
    intro ts e hN hM h
    rw [bind_apply] at h
    split at h
    · rename_i a mid hpa
      have hmid := hp.length_le hN hpa
      rw [bind_apply_of_ok (hp.ok_moved hN hM hpa)]
      exact (hf a).error (by omega) (by omega) h
    · rename_i e' hpe
      obtain rfl := Except.error.inj h
      rw [bind_apply, hp.error hN hM hpe]

theorem map (f : α → β) (hp : Local g N M n k p q) : Local g N M n k (f <$> p) (f <$> q) := by
  rw [map_eq_pure_bind, map_eq_pure_bind]
  exact hp.bind (by omega) fun a => Local.pure (f a)

theorem ite {c : Prop} [Decidable c] {p' q' : TokenParser α} (hp : c → Local g N M n k p q)
    (hp' : ¬c → Local g N M n k p' q') :
    Local g N M n k (if c then p else p') (if c then q else q') := by
  by_cases hc : c
  · rw [if_pos hc, if_pos hc]
    exact hp hc
  · rw [if_neg hc, if_neg hc]
    exact hp' hc

/-- What a local parser has taken it also takes in front of everything that starts alike. -/
theorem replace (h : ∀ {N M}, Local id N M n k p p) {ts rest : List Token} {a : α}
    (hp : p ts = .ok (a, rest)) : ∃ front, ts = front ++ rest ∧ n ≤ front.length ∧
      ∀ rest', Alike k rest rest' → p (front ++ rest') = .ok (a, rest') := by
  obtain ⟨front, rfl, hn⟩ := (h (M := 0)).taken (Nat.lt_succ_self _) hp
  refine ⟨front, rfl, hn, fun rest' halike => ?_⟩
  have hmore := h.ok (Nat.lt_succ_self _) (Nat.lt_succ_self _) halike hp
  rwa [moved_id] at hmore

/-! ## Repetition and recursion -/

variable {item item' : TokenParser (Option α)}

/-- An item that takes something and looks at nothing behind it. -/
theorem settled (h : ∀ {N M}, Local id N M n 0 item item) (hn : 1 ≤ n) : Settled item := by
  constructor
  intro ts rest a hitem
  obtain ⟨front, hts, hfront, hmore⟩ := replace h hitem
  exact ⟨front, hts, by omega, fun rest' => hmore rest' (.zero _ _)⟩

theorem collect_taken (h : Local g N M n k item item') {ts : List Token} (hts : ts.length < N)
    {as : List α} {rest : List Token} (hcollect : collect item ts = (as, .ok rest)) :
    ∃ front, ts = front ++ rest := by
  fun_induction collect item ts generalizing as with
  | case1 ts e hitem => exact absurd (Prod.mk.inj hcollect).2 (by simp)
  | case2 ts mid hitem =>
    obtain ⟨-, hrest⟩ := Prod.mk.inj hcollect
    obtain rfl := Except.ok.inj hrest
    obtain ⟨front, hfront, -⟩ := h.taken hts hitem
    exact ⟨front, hfront⟩
  | case3 ts a mid hitem hlt found outcome hmore ih =>
    obtain ⟨-, rfl⟩ := Prod.mk.inj hcollect
    obtain ⟨first, rfl, -⟩ := h.taken hts hitem
    obtain ⟨second, rfl⟩ := ih (by omega) hmore
    exact ⟨first ++ second, (List.append_assoc ..).symm⟩
  | case4 ts a mid hitem hlt =>
    obtain ⟨-, hrest⟩ := Prod.mk.inj hcollect
    obtain rfl := Except.ok.inj hrest
    obtain ⟨front, hfront, -⟩ := h.taken hts hitem
    exact ⟨front, hfront⟩

theorem collect_ok (h : Local g N M n k item item') {ts front rest rest' : List Token}
    (hts : ts = front ++ rest) (hN : ts.length < N) (hM : (front ++ rest').length < M)
    (halike : Alike k rest rest') {as : List α} (hcollect : collect item ts = (as, .ok rest)) :
    collect item' (moved g front ++ rest') = (as, .ok rest') := by
  fun_induction collect item ts generalizing as front with
  | case1 ts e hitem => exact absurd (Prod.mk.inj hcollect).2 (by simp)
  | case2 ts mid hitem =>
    obtain ⟨rfl, hrest⟩ := Prod.mk.inj hcollect
    obtain rfl := Except.ok.inj hrest
    subst hts
    rw [collect, h.ok hN hM halike hitem]
  | case3 ts a mid hitem hlt found outcome hmore ih =>
    obtain ⟨rfl, rfl⟩ := Prod.mk.inj hcollect
    obtain ⟨first, hfirst, -⟩ := h.taken hN hitem
    obtain ⟨second, rfl⟩ := h.collect_taken (by omega) hmore
    rw [hfirst, ← List.append_assoc] at hts
    obtain rfl := List.append_cancel_right hts
    subst hfirst
    simp only [List.length_append] at hN hM hlt
    have hlook : Alike k (second ++ rest) (moved g second ++ rest') :=
      (halike.append (Nat.zero_le _)).mono (by omega)
    have hq := h.ok (by simp only [List.length_append]; omega)
      (by simp only [List.length_append, length_moved]; omega) hlook hitem
    have hlt' : (moved g second ++ rest').length
        < (moved g first ++ (moved g second ++ rest')).length := by
      simp only [List.length_append, length_moved]
      omega
    rw [moved_append, List.append_assoc, collect, hq]
    simp only [hlt', if_true]
    rw [ih rfl (by simp only [List.length_append]; omega)
      (by simp only [List.length_append]; omega) hmore]
  | case4 ts a mid hitem hlt =>
    obtain ⟨rfl, hrest⟩ := Prod.mk.inj hcollect
    obtain rfl := Except.ok.inj hrest
    subst hts
    have hlt' : ¬rest'.length < (moved g front ++ rest').length := by
      simp only [List.length_append, length_moved] at hlt ⊢
      omega
    rw [collect, h.ok hN hM halike hitem]
    simp only [hlt', if_false]

theorem collect_error (h : Local g N M n k item item') {ts : List Token} (hN : ts.length < N)
    (hM : ts.length < M) {as : List α} {e : ParseError}
    (hcollect : collect item ts = (as, .error e)) :
    collect item' (moved g ts) = (as, .error (e.relocate g)) := by
  fun_induction collect item ts generalizing as with
  | case1 ts e' hitem =>
    obtain ⟨rfl, he⟩ := Prod.mk.inj hcollect
    obtain rfl := Except.error.inj he
    rw [collect, h.error hN hM hitem]
  | case2 => exact absurd (Prod.mk.inj hcollect).2 (by simp)
  | case3 ts a mid hitem hlt found outcome hmore ih =>
    obtain ⟨rfl, rfl⟩ := Prod.mk.inj hcollect
    rw [collect, h.ok_moved hN hM hitem]
    simp only [length_moved, hlt, if_true, ih (by omega) (by omega) hmore]
  | case4 => exact absurd (Prod.mk.inj hcollect).2 (by simp)

theorem many (h : Local g N M n k item item') : Local g N M 0 k (many item) (many item') where
  taken := by
    intro ts as rest hts hmany
    obtain ⟨front, hfront⟩ := h.collect_taken hts (many_eq_ok_iff.1 hmany)
    exact ⟨front, hfront, Nat.zero_le _⟩
  ok := by
    intro front rest rest' as hN hM halike hmany
    exact many_eq_ok_iff.2 (h.collect_ok rfl hN hM halike (many_eq_ok_iff.1 hmany))
  error := by
    intro ts e hN hM hmany
    unfold Parser.many at hmany ⊢
    split at hmany
    · exact absurd hmany (by simp)
    · rename_i as e' hcollect
      obtain rfl := Except.error.inj hmany
      rw [h.collect_error hN hM hcollect]

section

variable {stuck : ParseError} {body : TokenParser α → TokenParser α}

/-- Within its description, a parser is used on fewer tokens than the description itself. -/
theorem guarded {q : TokenParser α} (h : ∀ {M}, Local g N M n k (Parser.recursive stuck body) q)
    {ts : List Token} (hts : ts.length ≤ N) :
    Local g ts.length M n k (Parser.guarded stuck body ts) q where
  taken := by
    intro mid a rest hmid hp
    rw [guarded_of_lt hmid] at hp
    exact (h (M := M)).taken (by omega) hp
  ok := by
    intro front rest rest' a hmid hM halike hp
    rw [guarded_of_lt hmid] at hp
    exact h.ok (by omega) hM halike hp
  error := by
    intro mid e hmid hM hp
    rw [guarded_of_lt hmid] at hp
    exact h.error (by omega) hM hp

/-- A parser described in terms of itself is local if its description is, as soon as what stands for
    the parser in it is local on fewer tokens. -/
theorem recursive
    (h : ∀ {N M p q}, Local g N M n k p q → Local g (N + 1) (M + 1) n k (body p) (body q)) :
    Local g N M n k (Parser.recursive stuck body) (Parser.recursive stuck body) := by
  induction N generalizing M with
  | zero =>
    -- no list has fewer than no tokens
    constructor
    · intro ts a rest hts
      exact absurd hts (Nat.not_lt_zero _)
    · intro front rest rest' a hN
      exact absurd hN (Nat.not_lt_zero _)
    · intro ts e hts
      exact absurd hts (Nat.not_lt_zero _)
  | succ N ih =>
    have hguarded : ∀ ts us : List Token, ts.length ≤ N → Local g ts.length us.length n k
        (Parser.guarded stuck body ts) (Parser.guarded stuck body us) := by
      intro ts us hts
      constructor
      · intro mid a rest hmid hp
        exact (guarded (M := 0) ih hts).taken hmid hp
      · intro front rest rest' a hmid hM halike hp
        rw [guarded_of_lt (by simpa using hM)]
        exact (guarded ih hts).ok hmid hM halike hp
      · intro mid e hmid hM hp
        rw [guarded_of_lt (by simpa using hM)]
        exact (guarded ih hts).error hmid hM hp
    constructor
    · intro ts a rest hts hp
      rw [recursive_apply] at hp
      exact (h (hguarded ts ts (by omega))).taken (Nat.lt_succ_self _) hp
    · intro front rest rest' a hN hM halike hp
      rw [recursive_apply] at hp ⊢
      refine (h (hguarded (front ++ rest) _ (by omega))).ok (Nat.lt_succ_self _) ?_ halike hp
      simp
    · intro ts e hN hM hp
      rw [recursive_apply] at hp ⊢
      exact (h (hguarded ts _ (by omega))).error (Nat.lt_succ_self _) (by simp) hp

/-- A parser whose description is local does what its description says of it. -/
theorem recursive_eq
    (h : ∀ {N M p q}, Local id N M n k p q → Local id (N + 1) (M + 1) n k (body p) (body q)) :
    Parser.recursive stuck body = body (Parser.recursive stuck body) := by
  funext ts
  -- with the same tokens at the same places, to be local is to do the same
  have hguarded : Local id ts.length ts.length n k (Parser.guarded stuck body ts)
      (Parser.recursive stuck body) := guarded (N := ts.length) (recursive h) (Nat.le_refl _)
  have hts := Nat.lt_succ_self ts.length
  rw [recursive_apply]
  cases hp : body (Parser.guarded stuck body ts) ts with
  | ok r =>
    have hq := (h hguarded).ok_moved hts hts hp
    rw [moved_id, moved_id] at hq
    exact hq.symm
  | error e =>
    have hq := (h hguarded).error hts hts hp
    rw [moved_id, relocate_id] at hq
    exact hq.symm

end

/-! ## Single tokens -/

/-- A parser that looks at tokens and takes none. -/
theorem look {f : List Token → α} (hf : ∀ {ts us}, Alike k ts us → f ts = f us) :
    Local g N M 0 k (fun ts => .ok (f ts, ts)) (fun ts => .ok (f ts, ts)) where
  taken := by
    intro ts a rest _ h
    obtain ⟨-, rfl⟩ := Prod.mk.inj (Except.ok.inj h)
    exact ⟨[], rfl, Nat.le_refl _⟩
  ok := by
    intro front rest rest' a _ _ halike h
    obtain ⟨rfl, hrest⟩ := Prod.mk.inj (Except.ok.inj h)
    obtain rfl : front = [] := List.append_left_eq_self.1 hrest
    show Except.ok (f rest', rest') = _
    rw [List.nil_append, hf halike]
  error := by
    intro ts e _ _ h
    exact absurd h (by simp)

/-- A parser that takes the next token if it is wanted. -/
theorem accept {f : TokenKind → Option α} {other : α} (haccepts : Accepts p f other) :
    Local g N M 0 1 p p where
  taken := by
    intro ts a rest _ h
    cases ts with
    | nil =>
      obtain ⟨-, rfl⟩ := Prod.mk.inj (Except.ok.inj (haccepts.nil.symm.trans h))
      exact ⟨[], rfl, Nat.le_refl _⟩
    | cons t ts =>
      rw [haccepts.cons] at h
      split at h
      · obtain ⟨-, rfl⟩ := Prod.mk.inj (Except.ok.inj h)
        exact ⟨[t], rfl, Nat.zero_le _⟩
      · obtain ⟨-, rfl⟩ := Prod.mk.inj (Except.ok.inj h)
        exact ⟨[], rfl, Nat.le_refl _⟩
  ok := by
    intro front rest rest' a _ _ halike h
    cases front with
    | nil =>
      -- the next token was not wanted, and stays
      cases rest with
      | nil =>
        obtain rfl := halike.eq_nil (Nat.le_refl 1)
        exact h
      | cons t rest =>
        obtain ⟨t', rest', rfl, hkind⟩ := halike.exists_cons (Nat.le_refl 1)
        rw [List.nil_append, haccepts.cons] at h
        rw [moved_nil, List.nil_append, haccepts.cons, hkind]
        split at h
        · obtain ⟨-, hrest⟩ := Prod.mk.inj (Except.ok.inj h)
          exact absurd hrest (List.cons_ne_self t rest).symm
        · obtain ⟨rfl, -⟩ := Prod.mk.inj (Except.ok.inj h)
          rfl
    | cons t front =>
      rw [List.cons_append, haccepts.cons] at h
      rw [moved_cons, List.cons_append, haccepts.cons, Token.kind_relocate]
      split at h
      · obtain ⟨rfl, hrest⟩ := Prod.mk.inj (Except.ok.inj h)
        obtain rfl : front = [] := List.append_left_eq_self.1 hrest
        rfl
      · obtain ⟨-, hrest⟩ := Prod.mk.inj (Except.ok.inj h)
        exact absurd (congrArg List.length hrest) (by simp; omega)
  error := by
    intro ts e _ _ h
    cases ts with
    | nil => exact absurd (haccepts.nil.symm.trans h) (by simp)
    | cons t ts =>
      rw [haccepts.cons] at h
      split at h <;> simp at h

/-- A parser that takes the next token, which has to be wanted. -/
theorem expect {f : TokenKind → Option α} {expected : Expectation}
    (hexpects : Expects p f expected) : Local g N M 1 0 p p where
  taken := by
    intro ts a rest _ h
    cases ts with
    | nil => exact absurd (hexpects.nil.symm.trans h) (by simp)
    | cons t ts =>
      rw [hexpects.cons] at h
      split at h
      · obtain ⟨-, rfl⟩ := Prod.mk.inj (Except.ok.inj h)
        exact ⟨[t], rfl, Nat.le_refl _⟩
      · simp at h
  ok := by
    intro front rest rest' a _ _ _ h
    cases front with
    | nil =>
      cases rest with
      | nil => exact absurd (hexpects.nil.symm.trans h) (by simp)
      | cons t rest =>
        rw [List.nil_append, hexpects.cons] at h
        split at h
        · obtain ⟨-, hrest⟩ := Prod.mk.inj (Except.ok.inj h)
          exact absurd hrest (List.cons_ne_self t rest).symm
        · simp at h
    | cons t front =>
      rw [List.cons_append, hexpects.cons] at h
      rw [moved_cons, List.cons_append, hexpects.cons, Token.kind_relocate]
      split at h
      · obtain ⟨rfl, hrest⟩ := Prod.mk.inj (Except.ok.inj h)
        obtain rfl : front = [] := List.append_left_eq_self.1 hrest
        rfl
      · simp at h
  error := by
    intro ts e _ _ h
    cases ts with
    | nil =>
      obtain rfl := Except.error.inj (hexpects.nil.symm.trans h)
      exact hexpects.nil
    | cons t ts =>
      rw [hexpects.cons] at h
      rw [moved_cons, hexpects.cons, Token.kind_relocate]
      split at h
      · simp at h
      · obtain rfl := Except.error.inj h
        rfl

end Local

end TokenParser

end IdlBind
