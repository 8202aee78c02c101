import IdlBind.Binding.Parser
import IdlBind.Node.Query
import IdlBind.Proofs.Parsing.Basic

set_option autoImplicit false

/-! # The shape of binding descriptions

The trees that are read from a binding description are those of statements, so that every node in
them carries what is asked of it. At most one of them is a binding block
(`exists_statements_of_parse`). -/

namespace IdlBind.Binding

open TokenParser

/-! ## At most one block -/

/-- Is the statement a binding block? -/
def Statement.isBlock : Statement → Bool
  | .block .. => true
  | _ => false

theorem not_isBlock_of_statementBody {keyword : String} {position : Position} {ts rest : List Token}
    {s : Statement} (h : statementBody keyword position ts = .ok (s, rest)) :
    s.isBlock = false := by
  unfold statementBody at h
  split at h
  · simp only [Parser.bind_eq_ok_iff, Parser.pure_apply, Except.ok.injEq, Prod.mk.injEq] at h
    obtain ⟨reference, _, -, _, _, -, rfl, -⟩ := h
    rfl
  · simp only [Parser.bind_eq_ok_iff, Parser.pure_apply, Except.ok.injEq, Prod.mk.injEq] at h
    obtain ⟨first, _, -, others, _, -, _, _, -, rfl, -⟩ := h
    rfl
  · simp only [Parser.bind_eq_ok_iff, Parser.pure_apply, Except.ok.injEq, Prod.mk.injEq] at h
    obtain ⟨code, _, -, _, _, -, rfl, -⟩ := h
    rfl
  · exact absurd h (by simp [failWith])

theorem not_isBlock_of_plainStatement (ts : List Token) (s : Statement) (rest : List Token)
    (h : plainStatement ts = .ok (some s, rest)) : s.isBlock = false := by
  unfold plainStatement at h
  obtain ⟨ended, mid, -, h⟩ := Parser.bind_eq_ok_iff.1 h
  obtain ⟨bound, mid', -, h⟩ := Parser.bind_eq_ok_iff.1 h
  split at h
  · simp at h
  · obtain ⟨⟨keyword, position⟩, mid'', -, h⟩ := Parser.bind_eq_ok_iff.1 h
    obtain ⟨s', last, hbody, h⟩ := Parser.bind_eq_ok_iff.1 h
    simp only [Parser.pure_apply, Except.ok.injEq, Prod.mk.injEq, Option.some.injEq] at h
    obtain ⟨rfl, -⟩ := h
    exact not_isBlock_of_statementBody hbody

theorem countP_isBlock_eq_zero {ss : List Statement} (h : ∀ s ∈ ss, s.isBlock = false) :
    ss.countP Statement.isBlock = 0 := by
  rw [List.countP_eq_zero]
  intro s hs
  simp [h s hs]

/-- What the reader of descriptions can do: read statements up to the end, or a binding block with
    such statements around it. -/
theorem description_cases {ts rest : List Token} {ss : List Statement}
    (h : description ts = .ok (ss, rest)) :
    Parser.many plainStatement ts = .ok (ss, []) ∨
      ∃ before t behind bound mid others,
        Parser.many plainStatement ts = .ok (before, t :: behind) ∧
        block behind = .ok (bound, mid) ∧ Parser.many plainStatement mid = .ok (others, []) ∧
        ss = before ++ bound :: others := by
  unfold description at h
  obtain ⟨before, stop, hbefore, hrest⟩ := Parser.bind_eq_ok_iff.1 h
  rcases stop with _ | ⟨t, behind⟩
  · obtain ⟨rfl, -⟩ := Prod.mk.inj (Except.ok.inj hrest)
    exact .inl hbefore
  · have hend : atEnd (t :: behind) = .ok (false, t :: behind) := rfl
    have hskip : skip (t :: behind) = .ok ((), behind) := rfl
    rw [Parser.bind_apply_of_ok hend, if_neg (by simp), Parser.bind_apply_of_ok hskip] at hrest
    obtain ⟨bound, mid, hbound, hrest⟩ := Parser.bind_eq_ok_iff.1 hrest
    obtain ⟨others, last, hothers, hrest⟩ := Parser.bind_eq_ok_iff.1 hrest
    rcases last with _ | ⟨u, last⟩
    · obtain ⟨rfl, -⟩ := Prod.mk.inj (Except.ok.inj hrest)
      exact .inr ⟨before, t, behind, bound, mid, others, hbefore, hbound, hothers, rfl⟩
    · exact absurd hrest (by simp [Parser.bind_apply, peek?, failWith])

theorem countP_isBlock_le_one {ts rest : List Token} {ss : List Statement}
    (h : description ts = .ok (ss, rest)) : ss.countP Statement.isBlock ≤ 1 := by
  have hplain : ∀ {ts rest : List Token} {ss : List Statement},
      Parser.many plainStatement ts = .ok (ss, rest) → ss.countP Statement.isBlock = 0 :=
    fun h => countP_isBlock_eq_zero (Parser.mem_many not_isBlock_of_plainStatement h)
  rcases description_cases h with
    hall | ⟨before, t, behind, bound, mid, others, hbefore, -, hothers, rfl⟩
  · rw [hplain hall]
    exact Nat.zero_le 1
  · rw [List.countP_append, List.countP_cons, hplain hbefore, hplain hothers]
    split <;> omega

theorem exists_stream_of_parseText {α : Type} {p : TokenParser α} {source : String} {a : α}
    (h : parseText p source = .ok a) :
    ∃ stream rest, TokenStream.ofString source = .ok stream ∧ p stream.ahead = .ok (a, rest) := by
  unfold parseText at h
  cases hstream : TokenStream.ofString source with
  | error e => simp [hstream, bind, Except.bind] at h
  | ok stream =>
    cases hp : p stream.ahead with
    | error e => simp [hstream, hp, bind, Except.bind] at h
    | ok r =>
      simp only [hstream, hp, bind, Except.bind, pure, Except.pure, Except.ok.injEq] at h
      exact ⟨stream, r.2, rfl, by rw [← h, hp]⟩

/-! ## Trees of statements -/

/-- The trees that are read are those of statements, of which one at most is a binding block. -/
theorem exists_statements_of_parse {source : String} {trees : List Node}
    (h : parse source = .ok trees) :
    ∃ ss : List Statement, trees = ss.map Statement.toNode ∧ ss.countP Statement.isBlock ≤ 1 := by
  obtain ⟨ss, hparse, rfl⟩ := exists_of_map_eq_ok h
  obtain ⟨stream, rest, -, hread⟩ := exists_stream_of_parseText hparse
  exact ⟨ss, rfl, countP_isBlock_le_one hread⟩

/-- The references to WebIDL files among trees. -/
def references (trees : List Node) : List String :=
  (Node.eachKind .webIdlFile trees).filterMap Node.text?

theorem eq_map_text {k : NodeKind} {ns : List Node} (h : ∀ n ∈ ns, ∃ s, n = .text k s) :
    ns = (ns.filterMap Node.text?).map (Node.text k) := by
  induction ns with
  | nil => rfl
  | cons n rest ih =>
    obtain ⟨s, rfl⟩ := h n (List.mem_cons_self ..)
    have hrest := ih fun m hm => h m (List.mem_cons_of_mem _ hm)
    have hs : Node.text? (.text k s) = some s := rfl
    rw [List.filterMap_cons_some hs, List.map_cons, ← hrest]

theorem eachKind_webIdlFile (ss : List Statement) :
    Node.eachKind .webIdlFile (ss.map Statement.toNode)
      = (references (ss.map Statement.toNode)).map (Node.text .webIdlFile) := by
  refine eq_map_text fun n hn => ?_
  obtain ⟨hmem, hkind⟩ := List.mem_filter.1 hn
  obtain ⟨s, -, rfl⟩ := List.mem_map.1 hmem
  cases s <;> simp_all [Statement.toNode]

theorem kind_toNode_eq_binding_iff (s : Statement) :
    s.toNode.kind = .binding ↔ s.isBlock = true := by
  cases s <;> simp [Statement.toNode, Statement.isBlock]

/-- The first binding block is the only one. -/
theorem findKind?_of_mem {ss : List Statement} (hone : ss.countP Statement.isBlock ≤ 1)
    {block : Node} (hmem : block ∈ ss.map Statement.toNode) (hkind : block.kind = .binding) :
    Node.findKind? .binding (ss.map Statement.toNode) = some block := by
  unfold Node.findKind? Node.find?
  rw [Node.findFrom_head_eq_find?]
  induction ss with
  | nil => simp at hmem
  | cons s rest ih =>
    rw [List.countP_cons] at hone
    rw [List.map_cons, List.find?_cons]
    rcases List.mem_cons.1 hmem with rfl | hrest
    · simp [hkind]
    · obtain ⟨t, ht, rfl⟩ := List.mem_map.1 hrest
      have hpos := List.countP_pos_iff.2 ⟨t, ht, (kind_toNode_eq_binding_iff t).1 hkind⟩
      have hskind : s.toNode.kind ≠ .binding := by
        intro h
        rw [if_pos ((kind_toNode_eq_binding_iff s).1 h)] at hone
        omega
      simp only [hskind, decide_false]
      exact ih (by omega) hrest

/-! ## What a block holds -/

/-- The name of a block comes first. -/
theorem child?_ident_block (name : String) (entries : List Entry) :
    (Statement.block name entries).toNode.child? .ident = some (.text .ident name) := by
  simp [Statement.toNode, Node.child?]

/-- The children of a block are its name and its entries. -/
theorem exists_text_of_child?_block {name : String} {entries : List Entry} {k : NodeKind}
    (hk : k ≠ .bindingPrivate) {c : Node}
    (hc : (Statement.block name entries).toNode.child? k = some c) : ∃ s, c = .text k s := by
  have hmem := List.mem_of_find?_eq_some hc
  have hkind : c.kind = k := by simpa using List.find?_some hc
  simp only [Statement.toNode, Node.children_list, List.mem_cons, List.mem_map] at hmem
  rcases hmem with rfl | ⟨e, -, rfl⟩
  · subst hkind
    exact ⟨name, rfl⟩
  · cases e with
    | type s => exact ⟨s, by subst hkind; rfl⟩
    | interface s => exact ⟨s, by subst hkind; rfl⟩
    | privateField ctype s => exact absurd hkind.symm hk

/-- A private entry holds a type and a name. -/
theorem exists_eq_of_mem_privates {name : String} {entries : List Entry} {n : Node}
    (hn : n ∈ Node.eachKind .bindingPrivate (Statement.block name entries).toNode.children) :
    ∃ ctype field, n = .list .bindingPrivate [.text .string ctype, .text .ident field] := by
  obtain ⟨hmem, hkind⟩ := List.mem_filter.1 hn
  simp only [Statement.toNode, Node.children_list, List.mem_cons, List.mem_map] at hmem
  rcases hmem with rfl | ⟨e, -, rfl⟩
  · exact absurd (of_decide_eq_true hkind) (by simp)
  · cases e with
    | type s => exact absurd (of_decide_eq_true hkind) (by simp [Entry.toNode])
    | interface s => exact absurd (of_decide_eq_true hkind) (by simp [Entry.toNode])
    | privateField ctype s => exact ⟨ctype, s, rfl⟩

end IdlBind.Binding
