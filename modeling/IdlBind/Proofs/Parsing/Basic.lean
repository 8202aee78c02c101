import IdlBind.Parser

set_option autoImplicit false

/-! # Parsers as functions

How composed parsers act on a list, and what holds of the results of a repetition because it holds
of each result of its item. -/

namespace IdlBind

theorem exists_of_map_eq_ok {ε α β : Type} {f : α → β} {x : Except ε α} {b : β}
    (h : x.map f = .ok b) : ∃ a, x = .ok a ∧ f a = b := by
  cases x with
  | error e => exact absurd h (by simp [Except.map])
  | ok a => exact ⟨a, rfl, Except.ok.inj h⟩

namespace Parser

variable {τ ε α β : Type}

@[simp] theorem pure_apply (a : α) (ts : List τ) :
    (pure a : Parser τ ε α) ts = .ok (a, ts) := rfl

theorem bind_apply (p : Parser τ ε α) (f : α → Parser τ ε β) (ts : List τ) :
    (p >>= f) ts = match p ts with
      | .ok (a, rest) => f a rest
      | .error e => .error e := by
  show (p ts >>= fun (r : α × List τ) => f r.1 r.2) = _
  cases p ts <;> rfl

theorem bind_apply_of_ok {p : Parser τ ε α} {ts rest : List τ} {a : α}
    (h : p ts = .ok (a, rest)) (f : α → Parser τ ε β) : (p >>= f) ts = f a rest := by
  rw [bind_apply, h]

theorem bind_eq_error {p : Parser τ ε α} {ts : List τ} {e : ε} (h : p ts = .error e)
    (f : α → Parser τ ε β) : (p >>= f) ts = .error e := by
  rw [bind_apply, h]

theorem bind_congr {p : Parser τ ε α} {ts us : List τ} (h : p ts = p us)
    (f : α → Parser τ ε β) : (p >>= f) ts = (p >>= f) us := by
  rw [bind_apply, bind_apply, h]

theorem map_congr {p : Parser τ ε α} {ts us : List τ} (h : p ts = p us) (f : α → β) :
    (f <$> p) ts = (f <$> p) us := by
  rw [map_eq_pure_bind]
  exact bind_congr h _

theorem map_apply (p : Parser τ ε α) (f : α → β) (ts : List τ) :
    (f <$> p) ts = (p ts).map fun r => (f r.1, r.2) := by
  rw [map_eq_pure_bind, bind_apply]
  cases p ts <;> rfl

theorem bind_eq_ok_iff {p : Parser τ ε α} {f : α → Parser τ ε β} {ts rest : List τ} {b : β} :
    (p >>= f) ts = .ok (b, rest) ↔ ∃ a mid, p ts = .ok (a, mid) ∧ f a mid = .ok (b, rest) := by
  rw [bind_apply]
  constructor
  · intro h
    split at h
    · rename_i a mid hp
      exact ⟨a, mid, hp, h⟩
    · exact absurd h (by simp)
  · rintro ⟨a, mid, hp, hf⟩
    rw [hp]
    exact hf

theorem map_eq_ok_iff {p : Parser τ ε α} {f : α → β} {ts rest : List τ} {b : β} :
    (f <$> p) ts = .ok (b, rest) ↔ ∃ a, f a = b ∧ p ts = .ok (a, rest) := by
  rw [map_eq_pure_bind, bind_eq_ok_iff]
  constructor
  · rintro ⟨a, mid, hp, h⟩
    obtain ⟨rfl, rfl⟩ := Prod.mk.inj (Except.ok.inj h)
    exact ⟨a, rfl, hp⟩
  · rintro ⟨a, rfl, hp⟩
    exact ⟨a, rest, hp, rfl⟩

/-! ## Recursion -/

/-- What stands for a recursive parser in its description when that is applied to `input`. -/
def guarded (stuck : ε) (body : Parser τ ε α → Parser τ ε α) (input : List τ) : Parser τ ε α :=
  fun rest => if rest.length < input.length then recursive stuck body rest else .error stuck

theorem recursive_apply (stuck : ε) (body : Parser τ ε α → Parser τ ε α) (input : List τ) :
    recursive stuck body input = body (guarded stuck body input) input := by
  unfold recursive
  rw [recursiveFrom]
  rfl

theorem guarded_of_lt {stuck : ε} {body : Parser τ ε α → Parser τ ε α} {input rest : List τ}
    (h : rest.length < input.length) :
    guarded stuck body input rest = recursive stuck body rest := if_pos h

/-! ## Repetition -/

theorem many_eq_ok_iff {item : Parser τ ε (Option α)} {ts rest : List τ} {as : List α} :
    many item ts = .ok (as, rest) ↔ collect item ts = (as, .ok rest) := by
  unfold many
  split
  · rename_i found rest' h
    rw [h]
    simp
  · rename_i found e h
    rw [h]
    simp

theorem many_eq_nil {item : Parser τ ε (Option α)} {ts rest : List τ}
    (h : item ts = .ok (none, rest)) : many item ts = .ok ([], rest) := by
  rw [many_eq_ok_iff, collect, h]

theorem many_cons {item : Parser τ ε (Option α)} {ts mid rest : List τ} {a : α} {as : List α}
    (h : item ts = .ok (some a, mid)) (hlt : mid.length < ts.length)
    (hmany : many item mid = .ok (as, rest)) : many item ts = .ok (a :: as, rest) := by
  rw [many_eq_ok_iff] at hmany ⊢
  rw [collect, h]
  simp only [hlt, if_true, hmany]

theorem many_eq_error {item : Parser τ ε (Option α)} {ts : List τ} {e : ε}
    (h : item ts = .error e) : many item ts = .error e := by
  rw [many, collect, h]

/-- An item that takes nothing is the last. -/
theorem many_eq_singleton {item : Parser τ ε (Option α)} {ts rest : List τ} {a : α}
    (h : item ts = .ok (some a, rest)) (hlt : ¬rest.length < ts.length) :
    many item ts = .ok ([a], rest) := by
  rw [many_eq_ok_iff, collect, h]
  simp only [hlt, if_false]

theorem many_cons_eq_error {item : Parser τ ε (Option α)} {ts mid : List τ} {a : α} {e : ε}
    (h : item ts = .ok (some a, mid)) (hlt : mid.length < ts.length)
    (hmany : many item mid = .error e) : many item ts = .error e := by
  rw [many] at hmany ⊢
  rw [collect, h]
  simp only [hlt, if_true]
  revert hmany
  rcases collect item mid with ⟨found, e' | rest⟩
  · exact id
  · exact fun hmany => absurd hmany (by simp)

theorem item_of_many_eq_nil {item : Parser τ ε (Option α)} {ts rest : List τ}
    (h : many item ts = .ok ([], rest)) : item ts = .ok (none, rest) := by
  rw [many_eq_ok_iff, collect] at h
  split at h
  · exact absurd (Prod.mk.inj h).2 (by simp)
  · rename_i hitem
    rw [hitem, Except.ok.inj (Prod.mk.inj h).2]
  · split at h
    · exact absurd (Prod.mk.inj h).1 (by simp)
    · exact absurd (Prod.mk.inj h).1 (by simp)

/-- The first result of a repetition is that of its item, provided that the item reads something. -/
theorem exists_of_many_eq_cons {item : Parser τ ε (Option α)} {ts rest : List τ} {a : α}
    {as : List α} (hlt : ∀ {b mid}, item ts = .ok (some b, mid) → mid.length < ts.length)
    (h : many item ts = .ok (a :: as, rest)) :
    ∃ mid, item ts = .ok (some a, mid) ∧ many item mid = .ok (as, rest) := by
  rw [many_eq_ok_iff, collect] at h
  split at h
  · exact absurd (Prod.mk.inj h).1 (by simp)
  · exact absurd (Prod.mk.inj h).1 (by simp)
  · rename_i b mid hitem
    rw [if_pos (hlt hitem)] at h
    obtain ⟨hfirst, hrest⟩ := Prod.mk.inj h
    obtain ⟨rfl, hmore⟩ := List.cons.inj hfirst
    exact ⟨mid, hitem, many_eq_ok_iff.2 (Prod.ext hmore hrest)⟩

theorem mem_collect {item : Parser τ ε (Option α)} {P : α → Prop}
    (h : ∀ ts a rest, item ts = .ok (some a, rest) → P a) (ts : List τ) :
    ∀ a ∈ (collect item ts).1, P a := by
  fun_induction collect item ts with
  | case1 => simp
  | case2 => simp
  | case3 input a rest hitem hlt as outcome hmore ih =>
    intro b hb
    rw [hmore] at ih
    rcases List.mem_cons.1 hb with rfl | hb
    · exact h _ _ _ hitem
    · exact ih b hb
  | case4 input a rest hitem hlt =>
    intro b hb
    obtain rfl := List.mem_singleton.1 hb
    exact h _ _ _ hitem

/-- Each result of a repetition is read at a place to which its items lead. -/
theorem exists_of_mem_collect {item : Parser τ ε (Option α)} {P : List τ → Prop}
    (hnext : ∀ {ts a rest}, P ts → item ts = .ok (some a, rest) → P rest) {ts : List τ} (hts : P ts) :
    ∀ a ∈ (collect item ts).1, ∃ us rest, P us ∧ item us = .ok (some a, rest) := by
  fun_induction collect item ts with
  | case1 => simp
  | case2 => simp
  | case3 input a rest hitem hlt as outcome hmore ih =>
    intro b hb
    rcases List.mem_cons.1 hb with rfl | hb
    · exact ⟨input, rest, hts, hitem⟩
    · rw [hmore] at ih
      exact ih (hnext hts hitem) b hb
  | case4 input a rest hitem hlt =>
    intro b hb
    obtain rfl := List.mem_singleton.1 hb
    exact ⟨input, rest, hts, hitem⟩

/-- A repetition stops where its item finds nothing. -/
theorem item_of_many {item : Parser τ ε (Option α)} (hlt : ∀ {ts a rest},
      item ts = .ok (some a, rest) → rest.length < ts.length)
    (hstop : ∀ {ts rest}, item ts = .ok (none, rest) → rest = ts) {ts rest : List τ} {as : List α}
    (h : many item ts = .ok (as, rest)) : item rest = .ok (none, rest) := by
  induction as generalizing ts with
  | nil =>
    have hitem := item_of_many_eq_nil h
    obtain rfl := hstop hitem
    exact hitem
  | cons a as ih =>
    obtain ⟨mid, -, hmore⟩ := exists_of_many_eq_cons hlt h
    exact ih hmore

theorem mem_many {item : Parser τ ε (Option α)} {P : α → Prop}
    (h : ∀ ts a rest, item ts = .ok (some a, rest) → P a) {ts rest : List τ} {as : List α}
    (hmany : many item ts = .ok (as, rest)) : ∀ a ∈ as, P a := by
  have hcollect := mem_collect h ts
  rw [many_eq_ok_iff.1 hmany] at hcollect
  exact hcollect

/-- What this item finds, it finds by taking something, and in front of anything. -/
structure Settled (item : Parser τ ε (Option α)) : Prop where
  replace : ∀ {ts rest : List τ} {a : α}, item ts = .ok (some a, rest) →
    ∃ front, ts = front ++ rest ∧ 1 ≤ front.length ∧
      ∀ rest', item (front ++ rest') = .ok (some a, rest')

namespace Settled

variable {item : Parser τ ε (Option α)}

theorem length_lt (h : Settled item) {ts rest : List τ} {a : α}
    (hitem : item ts = .ok (some a, rest)) : rest.length < ts.length := by
  obtain ⟨front, rfl, hfront, -⟩ := h.replace hitem
  rw [List.length_append]
  omega

theorem collect_cons (h : Settled item) {ts rest : List τ} {a : α}
    (hitem : item ts = .ok (some a, rest)) :
    collect item ts = (a :: (collect item rest).1, (collect item rest).2) := by
  have hlt := h.length_lt hitem
  rw [collect, hitem]
  simp only [hlt, if_true]

/-- The first item decides how a repetition starts. -/
theorem collect_congr (h : Settled item) {ts us : List τ} (hitem : item ts = item us) :
    collect item ts = collect item us := by
  rcases hus : item us with e | ⟨_ | a, rest⟩
  · rw [collect.eq_def item ts, collect.eq_def item us, hitem, hus]
  · rw [collect.eq_def item ts, collect.eq_def item us, hitem, hus]
  · rw [h.collect_cons hus, h.collect_cons (hitem.trans hus)]

/-- What a repetition takes it also takes in front of everything that stops it. -/
theorem many_replace (h : Settled item) (hstop : ∀ {ts rest}, item ts = .ok (none, rest) → rest = ts)
    {ts us : List τ} {as : List α} (hmany : many item ts = .ok (as, us)) :
    ∃ front, ts = front ++ us ∧
      ∀ us', item us' = .ok (none, us') → many item (front ++ us') = .ok (as, us') := by
  induction as generalizing ts with
  | nil =>
    obtain rfl := hstop (item_of_many_eq_nil hmany)
    exact ⟨[], rfl, fun us' hnone => many_eq_nil hnone⟩
  | cons a as ih =>
    obtain ⟨mid, hitem, hmore⟩ := exists_of_many_eq_cons h.length_lt hmany
    obtain ⟨first, rfl, -, hfirst⟩ := h.replace hitem
    obtain ⟨front, rfl, hfront⟩ := ih hmore
    refine ⟨first ++ front, (List.append_assoc ..).symm, fun us' hnone => ?_⟩
    rw [List.append_assoc]
    exact many_cons (hfirst _) (h.length_lt (hfirst _)) (hfront us' hnone)

/-- A repetition goes on behind a list that it reads to the end, provided that nothing of the list
    is left over. -/
theorem collect_append (h : Settled item) {us : List τ}
    (hnone : ∀ {ts}, item ts = .ok (none, []) → item (ts ++ us) = item us)
    {ts : List τ} {as : List α} (hcollect : collect item ts = (as, .ok [])) :
    collect item (ts ++ us) = (as ++ (collect item us).1, (collect item us).2) := by
  fun_induction collect item ts generalizing as with
  | case1 => exact absurd (Prod.mk.inj hcollect).2 (by simp)
  | case2 ts rest hitem =>
    obtain ⟨rfl, hrest⟩ := Prod.mk.inj hcollect
    obtain rfl := Except.ok.inj hrest
    exact h.collect_congr (hnone hitem)
  | case3 ts a mid hitem hlt found outcome hmore ih =>
    obtain ⟨rfl, rfl⟩ := Prod.mk.inj hcollect
    obtain ⟨front, rfl, -, hfront⟩ := h.replace hitem
    rw [List.append_assoc, h.collect_cons (hfront (mid ++ us)), ih hmore]
    rfl
  | case4 ts a rest hitem hlt => exact absurd (h.length_lt hitem) hlt

end Settled

/-- A repetition reads back what was printed for its results if its item does so in front of
    everything that satisfies `P`, as what is printed for a result and the end do. -/
theorem many_print {item : Parser τ ε (Option α)} {print : α → List τ} {P : List τ → Prop}
    {end₁ end₂ : List τ} (hend : item end₁ = .ok (none, end₂)) (hP : P end₁)
    (hnext : ∀ a ts, P (print a ++ ts)) {as : List α}
    (hitem : ∀ a ∈ as, ∀ ts, P ts → item (print a ++ ts) = .ok (some a, ts))
    (hprint : ∀ a ∈ as, print a ≠ []) :
    many item (as.flatMap print ++ end₁) = .ok (as, end₂) := by
  rw [many_eq_ok_iff]
  induction as with
  | nil =>
    rw [List.flatMap_nil, List.nil_append, collect, hend]
  | cons a as ih =>
    -- behind an item stands the next one, or the end
    have hrest : P (as.flatMap print ++ end₁) := by
      cases as with
      | nil => exact hP
      | cons b bs =>
        rw [List.flatMap_cons, List.append_assoc]
        exact hnext b _
    have hlt : (as.flatMap print ++ end₁).length
        < (print a ++ (as.flatMap print ++ end₁)).length := by
      have := List.length_pos_iff.2 (hprint a List.mem_cons_self)
      simp only [List.length_append]
      omega
    rw [List.flatMap_cons, List.append_assoc, collect, hitem a List.mem_cons_self _ hrest]
    simp only [hlt, if_true]
    rw [ih (fun b hb => hitem b (List.mem_cons_of_mem _ hb))
      (fun b hb => hprint b (List.mem_cons_of_mem _ hb))]

end Parser

end IdlBind
