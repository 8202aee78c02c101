import IdlBind.Node.Query
import Mathlib.Algebra.GroupWithZero.Nat
import Mathlib.Data.List.Infix

set_option autoImplicit false

/-! # Searches and visits

A search that is resumed behind every node found comes to each node that it looks for once, and
looks at each node of the list once (`searches_eq_filter`, `lookedAt_searches`): a search stops at
the node found, and the next one starts right behind it. A visit goes on from node to node as long
as the callback does not fail (`run_forM_recording`). -/

namespace IdlBind.Node

/-! ## Resumed searches -/

theorem findFrom_suffix (p : Node → Bool) (list : List Node) : findFrom p list <:+ list := by
  induction list with
  | nil => exact List.suffix_rfl
  | cons n rest ih =>
    unfold findFrom
    split
    · exact List.suffix_rfl
    · exact ih.trans (List.suffix_cons n rest)

theorem findFrom_cons_of_pos {p : Node → Bool} {n : Node} (h : p n = true) (rest : List Node) :
    findFrom p (n :: rest) = n :: rest := by rw [findFrom, if_pos h]

theorem findFrom_cons_of_neg {p : Node → Bool} {n : Node} (h : ¬p n = true) (rest : List Node) :
    findFrom p (n :: rest) = findFrom p rest := by rw [findFrom, if_neg h]

/-- What a search has found, and what the searches behind it find, up to the one that finds
    nothing. -/
def resumed (p : Node → Bool) : List Node → List (List Node)
  | [] => []
  | n :: rest => (n :: rest) :: resumed p (findAfter p (n :: rest))
termination_by found => found.length
decreasing_by exact Nat.lt_succ_of_le (findFrom_suffix p rest).length_le

/-- What a search and its resumptions find: the list from each node found. -/
def searches (p : Node → Bool) (list : List Node) : List (List Node) := resumed p (findFrom p list)

@[simp] theorem searches_nil (p : Node → Bool) : searches p [] = [] := by
  rw [searches, findFrom, resumed]

theorem searches_cons_of_pos {p : Node → Bool} {n : Node} (h : p n = true) (rest : List Node) :
    searches p (n :: rest) = (n :: rest) :: searches p rest := by
  rw [searches, findFrom_cons_of_pos h, resumed]
  rfl

theorem searches_cons_of_neg {p : Node → Bool} {n : Node} (h : ¬p n = true) (rest : List Node) :
    searches p (n :: rest) = searches p rest := by
  rw [searches, findFrom_cons_of_neg h, searches]

/-- Searches come to the places in the list at which there is a node that is looked for. -/
theorem searches_eq_filter (p : Node → Bool) (list : List Node) :
    searches p list = list.tails.filter fun place => place.head?.any p := by
  induction list with
  | nil => rw [searches_nil]; rfl
  | cons n rest ih =>
    by_cases h : p n = true
    · rw [searches_cons_of_pos h, ih, List.tails_cons, List.filter_cons_of_pos (by simpa using h)]
    · rw [searches_cons_of_neg h, ih, List.tails_cons, List.filter_cons_of_neg (by simpa using h)]

/-- Searches come to the nodes that are looked for, in order and each once. -/
theorem heads_searches (p : Node → Bool) (list : List Node) :
    (searches p list).filterMap List.head? = list.filter p := by
  induction list with
  | nil => rw [searches_nil]; rfl
  | cons n rest ih =>
    by_cases h : p n = true
    · have hhead : (n :: rest).head? = some n := rfl
      rw [searches_cons_of_pos h, List.filterMap_cons_some hhead, ih, List.filter_cons_of_pos h]
    · rw [searches_cons_of_neg h, ih, List.filter_cons_of_neg h]

/-! ## Calls of the predicate -/

/-- A search with a predicate that has effects. -/
def findFromM {m : Type → Type} [Monad m] (p : Node → m Bool) : List Node → m (List Node)
  | [] => pure []
  | n :: rest => do
    if ← p n then pure (n :: rest) else findFromM p rest

/-- The predicate that also writes down each node that it is called with. -/
def logged (p : Node → Bool) (n : Node) : StateM (List Node) Bool := do
  modify (· ++ [n])
  pure (p n)

theorem run_logged (p : Node → Bool) (n : Node) (seen : List Node) :
    (logged p n).run seen = (p n, seen ++ [n]) := rfl

/-- The nodes that a search looks at. -/
def lookedAt (p : Node → Bool) (list : List Node) : List Node := list.take (findCalls p list)

theorem findCalls_le (p : Node → Bool) (list : List Node) : findCalls p list ≤ list.length := by
  induction list with
  | nil => exact Nat.le_refl 0
  | cons n rest ih =>
    unfold findCalls
    split
    · exact Nat.succ_le_succ (Nat.zero_le _)
    · exact Nat.succ_le_succ ih

theorem length_lookedAt (p : Node → Bool) (list : List Node) :
    (lookedAt p list).length = findCalls p list := by
  rw [lookedAt, List.length_take, Nat.min_eq_left (findCalls_le p list)]

theorem lookedAt_cons_of_pos {p : Node → Bool} {n : Node} (h : p n = true) (rest : List Node) :
    lookedAt p (n :: rest) = [n] := by
  rw [lookedAt, findCalls, if_pos h]
  rfl

theorem lookedAt_cons_of_neg {p : Node → Bool} {n : Node} (h : ¬p n = true) (rest : List Node) :
    lookedAt p (n :: rest) = n :: lookedAt p rest := by
  rw [lookedAt, findCalls, if_neg h]
  rfl

/-- A search calls its predicate with the nodes that it looks at, in order. -/
theorem run_findFromM_logged (p : Node → Bool) (list seen : List Node) :
    (findFromM (logged p) list).run seen = (findFrom p list, seen ++ lookedAt p list) := by
  induction list generalizing seen with
  | nil => exact congrArg (Prod.mk []) (List.append_nil seen).symm
  | cons n rest ih =>
    by_cases h : p n = true
    · rw [findFrom_cons_of_pos h, lookedAt_cons_of_pos h, findFromM, StateT.run_bind, run_logged]
      simp only [h]
      rfl
    · rw [findFrom_cons_of_neg h, lookedAt_cons_of_neg h, List.append_cons, ← ih, findFromM,
        StateT.run_bind, run_logged]
      simp only [h]
      rfl

/-- All searches together look at each node once, in the order of the list. -/
theorem lookedAt_searches (p : Node → Bool) (list : List Node) :
    lookedAt p list ++ (searches p list).flatMap (fun found => lookedAt p found.tail) = list := by
  induction list with
  | nil => rw [searches_nil]; rfl
  | cons n rest ih =>
    by_cases h : p n = true
    · rw [searches_cons_of_pos h, lookedAt_cons_of_pos h, List.flatMap_cons]
      exact congrArg (n :: ·) ih
    · rw [searches_cons_of_neg h, lookedAt_cons_of_neg h]
      exact congrArg (n :: ·) ih

theorem findCalls_searches (p : Node → Bool) (list : List Node) :
    findCalls p list + ((searches p list).map fun found => findCalls p found.tail).sum
      = list.length := by
  have hlength := congrArg List.length (lookedAt_searches p list)
  simpa only [List.length_append, List.length_flatMap, length_lookedAt] using hlength

/-! ## Visits -/

variable {ε : Type}

/-- A callback that writes down each node that it is called with. What it answers may depend on the
    nodes that it has been called with before. -/
def recording (answer : List Node → Node → Except ε Unit) (n : Node) :
    ExceptT ε (StateM (List Node)) Unit := do
  let seen ← get
  set (seen ++ [n])
  ExceptT.mk (pure (answer seen n))

theorem run_recording (answer : List Node → Node → Except ε Unit) (n : Node) (seen : List Node) :
    (recording answer n).run.run seen = (answer seen n, seen ++ [n]) := rfl

/-- The callback is called with the first node, and with the others if it has not failed. -/
theorem run_forM_cons (answer : List Node → Node → Except ε Unit) (n : Node)
    (rest seen : List Node) :
    ((n :: rest).forM (recording answer)).run.run seen
      = match answer seen n with
        | .ok () => (rest.forM (recording answer)).run.run (seen ++ [n])
        | .error e => (.error e, seen ++ [n]) := by
  rw [List.forM_eq_forM, List.forM_cons, ExceptT.run_bind, StateT.run_bind, run_recording]
  cases answer seen n <;> rfl

/-- Does the callback pass each of the nodes, one after the other, when it has been called with
    others before? -/
def AllPass (answer : List Node → Node → Except ε Unit) (seen nodes : List Node) : Prop :=
  ∀ front n back, nodes = front ++ n :: back → answer (seen ++ front) n = .ok ()

variable {answer : List Node → Node → Except ε Unit}

theorem allPass_nil (seen : List Node) : AllPass answer seen [] := by
  intro front n back h
  exact absurd h (by simp)

theorem allPass_cons {seen rest : List Node} {n : Node} :
    AllPass answer seen (n :: rest) ↔
      answer seen n = .ok () ∧ AllPass answer (seen ++ [n]) rest := by
  constructor
  · intro h
    refine ⟨by simpa using h [] n rest rfl, ?_⟩
    rintro front m back rfl
    simpa using h (n :: front) m back rfl
  · rintro ⟨hn, hrest⟩ front m back h
    cases front with
    | nil =>
      obtain ⟨rfl, -⟩ := List.cons.inj h
      simpa using hn
    | cons m' front =>
      obtain ⟨rfl, rfl⟩ := List.cons.inj h
      simpa using hrest front m back rfl

/-- The first of the nodes that the callback fails is behind nodes that it passes. -/
structure FailsFirst (answer : List Node → Node → Except ε Unit) (seen nodes front : List Node)
    (n : Node) (e : ε) : Prop where
  exists_eq : ∃ back, nodes = front ++ n :: back
  passes : AllPass answer seen front
  fails : answer (seen ++ front) n = .error e

theorem FailsFirst.cons {seen rest front : List Node} {m n : Node} {e : ε}
    (hm : answer seen m = .ok ()) (h : FailsFirst answer (seen ++ [m]) rest front n e) :
    FailsFirst answer seen (m :: rest) (m :: front) n e := by
  obtain ⟨⟨back, rfl⟩, hpasses, hfails⟩ := h
  exact ⟨⟨back, rfl⟩, allPass_cons.2 ⟨hm, hpasses⟩, by simpa using hfails⟩

theorem FailsFirst.not_allPass {seen nodes front : List Node} {n : Node} {e : ε}
    (h : FailsFirst answer seen nodes front n e) : ¬AllPass answer seen nodes := by
  obtain ⟨⟨back, rfl⟩, -, hfails⟩ := h
  intro hall
  exact absurd ((hall front n back rfl).symm.trans hfails) (by simp)

/-- A visit calls the callback with all nodes, or with those up to the first one that it fails. -/
theorem run_forM_recording (nodes seen : List Node) :
    (AllPass answer seen nodes ∧
      (nodes.forM (recording answer)).run.run seen = (.ok (), seen ++ nodes)) ∨
    ∃ front n e, FailsFirst answer seen nodes front n e ∧
      (nodes.forM (recording answer)).run.run seen = (.error e, seen ++ front ++ [n]) := by
  -- the nodes that the callback has been called with grow along the induction
  induction nodes generalizing seen with
  | nil => exact .inl ⟨allPass_nil seen, by rw [List.append_nil]; rfl⟩
  | cons m rest ih =>
    rw [run_forM_cons]
    cases hm : answer seen m with
    | error e =>
      refine .inr ⟨[], m, e, ⟨⟨rest, rfl⟩, allPass_nil seen, ?_⟩, ?_⟩
      · rwa [List.append_nil]
      · rw [List.append_nil]
    | ok u =>
      rcases ih (seen ++ [m]) with ⟨hall, hrun⟩ | ⟨front, n, e, hfirst, hrun⟩
      · exact .inl ⟨allPass_cons.2 ⟨hm, hall⟩, by rw [hrun, ← List.append_cons]⟩
      · exact .inr ⟨m :: front, n, e, hfirst.cons hm, by rw [hrun, ← List.append_cons]⟩

/-- Resumed searches filter a list, and visits stop at the first error. A search and the searches
    behind each node that it finds come to the places with a node that is looked for, so to these
    nodes in order and each once. They call the predicate with each node of the list once, in order.
    A callback, whatever it makes its answers depend on, is called with the nodes of the kind, which
    are those that such searches find, in order; with all of them if it passes all, and else up to
    the first one that it fails, whose error is the result. -/
theorem searches_filter_and_visits_stop (list : List Node) :
    (∀ p : Node → Bool,
      searches p list = list.tails.filter (fun place => place.head?.any p) ∧
      (searches p list).filterMap List.head? = list.filter p ∧
      (∀ part seen, (findFromM (logged p) part).run seen
        = (findFrom p part, seen ++ lookedAt p part)) ∧
      lookedAt p list ++ (searches p list).flatMap (fun found => lookedAt p found.tail) = list ∧
      findCalls p list + ((searches p list).map fun found => findCalls p found.tail).sum
        = list.length) ∧
    ∀ (k : NodeKind) (answer : List Node → Node → Except ε Unit),
      let nodes := eachKind k list
      let visit := (forEachKind k list (recording answer)).run.run []
      nodes = (searches (·.kind = k) list).filterMap List.head? ∧
      (visit.1 = .ok () ↔ AllPass answer [] nodes) ∧
      ((AllPass answer [] nodes ∧ visit = (.ok (), nodes)) ∨
        ∃ front n e, FailsFirst answer [] nodes front n e ∧
          visit = (.error e, front ++ [n])) := by
  refine ⟨fun p => ⟨searches_eq_filter p list, heads_searches p list, run_findFromM_logged p,
    lookedAt_searches p list, findCalls_searches p list⟩, ?_⟩
  intro k answer nodes visit
  have hvisit : (AllPass answer [] nodes ∧ visit = (.ok (), nodes)) ∨
      ∃ front n e, FailsFirst answer [] nodes front n e ∧ visit = (.error e, front ++ [n]) :=
    run_forM_recording nodes []
  refine ⟨(heads_searches _ list).symm, ?_, hvisit⟩
  rcases hvisit with ⟨hall, hrun⟩ | ⟨front, n, e, hfirst, hrun⟩
  · exact iff_of_true (by rw [hrun]) hall
  · exact iff_of_false (by rw [hrun]; simp) hfirst.not_allPass

end IdlBind.Node
