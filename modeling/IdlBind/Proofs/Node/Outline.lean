import IdlBind.Node.Json
import IdlBind.Node.Outline
import IdlBind.Proofs.Text.Quoted

set_option autoImplicit false

/-! # Outlines and JSON show the whole tree

A tree can be read back from its outline. A line begins with two spaces for each level, so that the
levels in preorder give the nesting (`rows_inj`); the rest of the line shows the kind of the
node and what it carries other than children (`outlineLine_inj`). Of quoted text no more is used
than that it starts with a quote, stays on one line and determines the text. -/

namespace IdlBind.Node

/-! ## Nodes by level -/

/-- All nodes of a list of siblings and below it with their levels, each in front of its
    children. -/
def preorder (depth : Nat) : List Node → List (Nat × Node)
  | [] => []
  | .text k s :: rest => (depth, .text k s) :: preorder depth rest
  | .int k n :: rest => (depth, .int k n) :: preorder depth rest
  | .list k cs :: rest => (depth, .list k cs) :: (preorder (depth + 1) cs ++ preorder depth rest)

/-- What holds of a list if it holds of the children of the first node and of the rest, holds of all
    lists. -/
theorem induction_children {motive : List Node → Prop} (nil : motive [])
    (cons : ∀ n rest, motive n.children → motive rest → motive (n :: rest)) (list : List Node) :
    motive list := by
  fun_induction preorder 0 list with
  | case1 => exact nil
  | case2 _ k s rest ih => exact cons _ rest nil ih
  | case3 _ k n rest ih => exact cons _ rest nil ih
  | case4 _ k cs rest ihc ih => exact cons _ rest ihc ih

theorem preorder_cons (depth : Nat) (n : Node) (rest : List Node) :
    preorder depth (n :: rest)
      = (depth, n) :: (preorder (depth + 1) n.children ++ preorder depth rest) := by
  cases n <;> simp [preorder, children]

/-- All nodes of a list of siblings and below it. -/
def nodesOf (list : List Node) : List Node := (preorder 0 list).map Prod.snd

/-- On which level the siblings stand makes no difference to the nodes. -/
theorem map_snd_preorder (depth : Nat) (list : List Node) :
    (preorder depth list).map Prod.snd = nodesOf list := by
  unfold nodesOf
  induction list using induction_children generalizing depth with
  | nil => simp only [preorder]
  | cons n rest ihc ih =>
    rw [preorder_cons, preorder_cons, List.map_cons, List.map_cons, List.map_append,
      List.map_append, ihc (depth + 1), ihc (0 + 1), ih depth]

/-- A node is one of the siblings or it is below one of them. -/
theorem mem_nodesOf_iff {n : Node} {list : List Node} :
    n ∈ nodesOf list ↔ ∃ root ∈ list, n = root ∨ n ∈ nodesOf root.children := by
  induction list with
  | nil => simp [nodesOf, preorder]
  | cons root rest ih =>
    have hcons : nodesOf (root :: rest) = root :: (nodesOf root.children ++ nodesOf rest) := by
      rw [nodesOf, preorder_cons, List.map_cons, List.map_append, map_snd_preorder,
        map_snd_preorder]
    simp [hcons, ih, or_assoc]

@[simp] theorem nodesOf_nil : nodesOf [] = [] := by simp [nodesOf, preorder]

theorem le_of_mem_preorder {depth : Nat} {list : List Node} {p : Nat × Node}
    (h : p ∈ preorder depth list) : depth ≤ p.1 := by
  induction list using induction_children generalizing depth with
  | nil => simp [preorder] at h
  | cons n rest ihc ih =>
    rw [preorder_cons] at h
    rcases List.mem_cons.1 h with rfl | h
    · exact Nat.le_refl _
    · rcases List.mem_append.1 h with h | h
      · exact Nat.le_of_succ_le (ihc h)
      · exact ih h

/-- A node without its children. -/
def withoutChildren : Node → Node
  | .list k _ => .list k []
  | n => n

theorem eq_of_withoutChildren {a b : Node} (h : a.withoutChildren = b.withoutChildren)
    (hc : a.children = b.children) : a = b := by
  cases a <;> cases b <;> simp_all [withoutChildren, children]

/-- The levels in preorder, with the nodes without their children. -/
def rows (depth : Nat) (list : List Node) : List (Nat × Node) :=
  (preorder depth list).map fun p => (p.1, p.2.withoutChildren)

@[simp] theorem rows_nil (depth : Nat) : rows depth [] = [] := by simp [rows, preorder]

theorem rows_cons (depth : Nat) (n : Node) (rest : List Node) :
    rows depth (n :: rest)
      = (depth, n.withoutChildren) :: (rows (depth + 1) n.children ++ rows depth rest) := by
  simp [rows, preorder_cons]

/-- What is below a node is deeper than it. -/
theorem lt_of_mem_rows {depth : Nat} {list : List Node} {r : Nat × Node}
    (h : r ∈ rows (depth + 1) list) : depth < r.1 := by
  obtain ⟨p, hp, rfl⟩ := List.mem_map.1 h
  have hle : depth + 1 ≤ p.1 := le_of_mem_preorder hp
  exact hle

/-- What comes after a node starts on its level. -/
theorem eq_of_head?_rows {depth : Nat} {list : List Node} {r : Nat × Node}
    (h : r ∈ (rows depth list).head?) : r.1 = depth := by
  cases list with
  | nil => exact absurd h (by simp)
  | cons n rest =>
    rw [rows_cons] at h
    obtain rfl := Option.some.inj h
    rfl

/-- The rows determine the nesting. -/
theorem rows_inj {depth : Nat} {as bs : List Node} (h : rows depth as = rows depth bs) :
    as = bs := by
  induction as using induction_children generalizing depth bs with
  | nil =>
    cases bs with
    | nil => rfl
    | cons b bs => exact absurd h.symm (by simp [rows_cons])
  | cons a as ihc ih =>
    cases bs with
    | nil => exact absurd h (by simp [rows_cons])
    | cons b bs =>
      rw [rows_cons, rows_cons] at h
      obtain ⟨hfirst, hrest⟩ := List.cons.inj h
      have hdeeper : ∀ {cs : List Node}, ∀ r ∈ rows (depth + 1) cs, decide (depth < r.1) = true :=
        fun r hr => decide_eq_true (lt_of_mem_rows hr)
      have hafter : ∀ {cs : List Node}, ∀ r ∈ (rows depth cs).head?,
          decide (depth < r.1) = false := fun r hr =>
        decide_eq_false (by rw [eq_of_head?_rows hr]; exact Nat.lt_irrefl depth)
      obtain ⟨hchildren, hsiblings⟩ :=
        Text.append_inj_of_class hdeeper hdeeper hafter hafter hrest
      have hnode : a = b := eq_of_withoutChildren (Prod.mk.inj hfirst).2 (ihc hchildren)
      rw [hnode, ih hsiblings]

/-! ## One line -/

/-- The name of the code of an integer, as it stands behind it. -/
def codeNote (k : NodeKind) (n : Int) : List Char :=
  match codeName? k n with
  | some name => ' ' :: '(' :: (name.toList ++ [')'])
  | none => []

/-- What stands behind the kind in the line of a node. -/
def lineTail : Node → List Char
  | .text _ s => ':' :: ' ' :: (Text.quoted s).toList
  | .int k n => ':' :: ' ' :: ((toString n).toList ++ codeNote k n)
  | .list .. => []

theorem toList_outlineLine (n : Node) :
    (outlineLine n).toList = n.kind.name.toList ++ lineTail n := by
  cases n with
  | text k s => simp [outlineLine, lineTail]
  | list k cs => simp [outlineLine, lineTail]
  | int k n =>
    simp only [outlineLine, lineTail, codeNote, kind_int]
    cases codeName? k n <;> simp

theorem isLower_or_eq_hyphen_of_mem_name {k : NodeKind} {c : Char} (h : c ∈ k.name.toList) :
    (c.isLower || c == '-') = true := by
  have key : k.name.toList.all (fun c => c.isLower || c == '-') = true := by
    cases k <;> simp [NodeKind.name]
  exact List.all_eq_true.1 key c h

/-- A line starts with a character other than the space. -/
theorem exists_outlineLine_eq (n : Node) : ∃ c cs, (outlineLine n).toList = c :: cs ∧ c ≠ ' ' := by
  have hne : n.kind.name.toList ≠ [] := by
    cases n.kind <;> simp [NodeKind.name]
  obtain ⟨c, cs, hname⟩ := List.exists_cons_of_ne_nil hne
  refine ⟨c, cs ++ lineTail n, by rw [toList_outlineLine, hname, List.cons_append], ?_⟩
  rintro rfl
  exact absurd (isLower_or_eq_hyphen_of_mem_name (hname ▸ List.mem_cons_self)) (by decide)

theorem newline_notMem_codeNote (k : NodeKind) (n : Int) : '\n' ∉ codeNote k n := by
  have hname : ∀ name ∈ codeName? k n, '\n' ∉ name.toList := by
    intro name h
    unfold codeName? at h
    split at h
    · obtain ⟨b, -, rfl⟩ := Option.map_eq_some_iff.1 h
      cases b <;> decide
    · obtain ⟨m, -, rfl⟩ := Option.map_eq_some_iff.1 h
      cases m <;> decide
    · obtain ⟨m, -, rfl⟩ := Option.map_eq_some_iff.1 h
      cases m <;> decide
    · exact absurd h (by simp)
  unfold codeNote
  cases hcode : codeName? k n with
  | none => exact List.not_mem_nil
  | some name => simp [hname name hcode]

theorem newline_notMem_outlineLine (n : Node) : '\n' ∉ (outlineLine n).toList := by
  have hkind : '\n' ∉ n.kind.name.toList := fun h =>
    absurd (isLower_or_eq_hyphen_of_mem_name h) (by decide)
  have htail : '\n' ∉ lineTail n := by
    cases n with
    | text k s => simp [lineTail, Text.newline_notMem_quoted]
    | list k cs => simp [lineTail]
    | int k n =>
      have hdigits : '\n' ∉ (toString n).toList := fun h => by
        rcases Number.eq_minus_or_isDigit_of_mem_toString h with h | h <;> exact absurd h (by decide)
      simp only [lineTail, List.mem_cons, List.mem_append, hdigits, newline_notMem_codeNote,
        or_false]
      decide
  rw [toList_outlineLine]
  exact fun h => (List.mem_append.1 h).elim hkind htail

/-- The integer of a line ends where the name of its code begins. -/
theorem toString_codeNote_inj {k : NodeKind} {m n : Int}
    (h : (toString m).toList ++ codeNote k m = (toString n).toList ++ codeNote k n) : m = n := by
  have hdigits : ∀ {i : Int}, ∀ c ∈ (toString i).toList, (c != ' ') = true := by
    intro i c hc
    rw [bne_iff_ne]
    rintro rfl
    rcases Number.eq_minus_or_isDigit_of_mem_toString hc with h | h <;> exact absurd h (by decide)
  have hnote : ∀ {i : Int}, ∀ c ∈ (codeNote k i).head?, (c != ' ') = false := by
    intro i c hc
    unfold codeNote at hc
    cases hcode : codeName? k i with
    | none => simp [hcode] at hc
    | some name =>
      rw [hcode] at hc
      obtain rfl := Option.some.inj hc
      rfl
  exact Number.toString_int_inj (Text.append_inj_of_class hdigits hdigits hnote hnote h).1

theorem ne_quote_of_mem_toString {n : Int} {c : Char} (h : c ∈ (toString n).toList) : c ≠ '"' := by
  rintro rfl
  rcases Number.eq_minus_or_isDigit_of_mem_toString h with h | h <;> exact absurd h (by decide)

/-- No integer looks like a quoted text. -/
theorem quoted_ne_toString (s : String) (n : Int) (note : List Char) :
    (Text.quoted s).toList ≠ (toString n).toList ++ note := by
  obtain ⟨c, cs, hn⟩ := List.exists_cons_of_ne_nil (Number.toString_int_ne_nil n)
  have hc : c ≠ '"' := ne_quote_of_mem_toString (hn ▸ List.mem_cons_self)
  rw [Text.toList_quoted, hn]
  exact fun h => hc (List.cons.inj h).1.symm

/-- A line shows the kind of a node and all that it carries, other than its children. -/
theorem outlineLine_inj {a b : Node} (h : outlineLine a = outlineLine b) :
    a.withoutChildren = b.withoutChildren := by
  have hchars := congrArg String.toList h
  rw [toList_outlineLine, toList_outlineLine] at hchars
  have hname : ∀ {n : Node}, ∀ c ∈ n.kind.name.toList, (c.isLower || c == '-') = true :=
    fun c hc => isLower_or_eq_hyphen_of_mem_name hc
  have hcolon : ∀ {n : Node}, ∀ c ∈ (lineTail n).head?, (c.isLower || c == '-') = false := by
    rintro (_ | _ | _) c hc
    · obtain rfl := Option.some.inj hc
      decide
    · obtain rfl := Option.some.inj hc
      decide
    · exact absurd hc (by simp [lineTail])
  obtain ⟨hkind, htail⟩ := Text.append_inj_of_class hname hname hcolon hcolon hchars
  have hk : a.kind = b.kind := NodeKind.name_injective (String.toList_inj.1 hkind)
  cases a with
  | text k s =>
    cases b with
    | text k' t =>
      obtain rfl : k = k' := hk
      rw [Text.quoted_inj (List.cons.inj (List.cons.inj htail).2).2]
    | int k' n => exact absurd (List.cons.inj (List.cons.inj htail).2).2 (quoted_ne_toString s n _)
    | list k' ds => exact absurd htail (by simp [lineTail])
  | int k m =>
    cases b with
    | text k' t =>
      exact absurd (List.cons.inj (List.cons.inj htail).2).2.symm (quoted_ne_toString t m _)
    | int k' n =>
      obtain rfl : k = k' := hk
      rw [toString_codeNote_inj (List.cons.inj (List.cons.inj htail).2).2]
    | list k' ds => exact absurd htail (by simp [lineTail])
  | list k cs =>
    cases b with
    | text k' t => exact absurd htail (by simp [lineTail])
    | int k' n => exact absurd htail (by simp [lineTail])
    | list k' ds =>
      obtain rfl : k = k' := hk
      rfl

/-! ## Lines of an outline -/

theorem toList_indentLine (depth : Nat) (line : String) :
    (indentLine depth line).toList = List.replicate (2 * depth) ' ' ++ line.toList := by
  simp [indentLine]

/-- The indentation of a line can be told from the rest of it. -/
theorem indentLine_inj {d e : Nat} {a b : Node}
    (h : indentLine d (outlineLine a) = indentLine e (outlineLine b)) :
    d = e ∧ outlineLine a = outlineLine b := by
  have hchars := congrArg String.toList h
  rw [toList_indentLine, toList_indentLine] at hchars
  have hspaces : ∀ {k : Nat}, ∀ c ∈ List.replicate (2 * k) ' ', (c == ' ') = true := fun c hc =>
    beq_iff_eq.2 (List.eq_of_mem_replicate hc)
  have hline : ∀ {n : Node}, ∀ c ∈ (outlineLine n).toList.head?, (c == ' ') = false := by
    intro n c hc
    obtain ⟨c', cs, hline, hne⟩ := exists_outlineLine_eq n
    rw [hline] at hc
    obtain rfl := Option.some.inj hc
    exact beq_eq_false_iff_ne.2 hne
  obtain ⟨hindent, hrest⟩ := Text.append_inj_of_class hspaces hspaces hline hline hchars
  have hlength := congrArg List.length hindent
  rw [List.length_replicate, List.length_replicate] at hlength
  exact ⟨by omega, String.toList_inj.1 hrest⟩

/-- The lines are those of the nodes in preorder. -/
theorem outlineLines_eq (depth : Nat) (list : List Node) :
    outlineLines depth list
      = (preorder depth list).map fun p => indentLine p.1 (outlineLine p.2) := by
  fun_induction preorder depth list with
  | case1 => rfl
  | case2 depth k s rest ih => simp [outlineLines, outlineNode, ih]
  | case3 depth k n rest ih => simp [outlineLines, outlineNode, ih]
  | case4 depth k cs rest ihc ih => simp [outlineLines, outlineNode, ihc, ih]

theorem splitOn_join {lines : List String} (h : ∀ l ∈ lines, '\n' ∉ l.toList) :
    (String.join (lines.map (· ++ "\n"))).toList.splitOn '\n' = lines.map String.toList ++ [[]] := by
  induction lines with
  | nil => simp
  | cons l lines ih =>
    obtain ⟨hl, hlines⟩ := List.forall_mem_cons.1 h
    rw [List.map_cons, String.join_cons, String.toList_append, String.toList_append,
      List.append_assoc]
    exact (List.splitOn_append_cons_self_of_not_mem hl _).trans (congrArg _ (ih hlines))

/-- An outline has one line for each node, in preorder and indented by its level. -/
theorem splitOn_outline (list : List Node) :
    (outline list).toList.splitOn '\n' = ((preorder 0 list).map fun p =>
      List.replicate (2 * p.1) ' ' ++ (outlineLine p.2).toList) ++ [[]] := by
  have hlines : ∀ l ∈ outlineLines 0 list, '\n' ∉ l.toList := by
    intro l hl
    rw [outlineLines_eq] at hl
    obtain ⟨p, -, rfl⟩ := List.mem_map.1 hl
    rw [toList_indentLine]
    intro h
    rcases List.mem_append.1 h with h | h
    · exact absurd (List.eq_of_mem_replicate h) (by decide)
    · exact newline_notMem_outlineLine p.2 h
  rw [outline, splitOn_join hlines, outlineLines_eq, List.map_map]
  exact congrArg (· ++ [[]]) (List.map_congr_left fun p _ => toList_indentLine _ _)

/-- What agrees wherever `f` does agrees along lists on which `f` does. -/
theorem map_eq_of_map_eq {α β γ : Type} {f : α → β} {g : α → γ}
    (hfg : ∀ x y, f x = f y → g x = g y) {l l' : List α} (h : l.map f = l'.map f) :
    l.map g = l'.map g := by
  induction l generalizing l' with
  | nil => rw [List.map_eq_nil_iff.1 h.symm]
  | cons x l ih =>
    cases l' with
    | nil => exact absurd h (by simp)
    | cons y l' =>
      obtain ⟨hhead, htail⟩ := List.cons.inj h
      rw [List.map_cons, List.map_cons, hfg x y hhead, ih htail]

theorem outline_inj {a b : List Node} (h : outline a = outline b) : a = b := by
  have hlines := congrArg (fun text => text.toList.splitOn '\n') h
  simp only [splitOn_outline] at hlines
  refine rows_inj (map_eq_of_map_eq (fun p q hline => ?_) (List.append_cancel_right hlines))
  rw [← toList_indentLine, ← toList_indentLine] at hline
  obtain ⟨hlevel, hnode⟩ := indentLine_inj (String.toList_inj.1 hline)
  rw [hlevel, outlineLine_inj hnode]

/-! ## JSON -/

theorem toJsonItems_inj {as bs : List Node} (h : toJsonItems as = toJsonItems bs) : as = bs := by
  induction as using induction_children generalizing bs with
  | nil =>
    cases bs with
    | nil => rfl
    | cons b bs => simp [toJsonItems] at h
  | cons a as ihc ih =>
    cases bs with
    | nil => simp [toJsonItems] at h
    | cons b bs =>
      simp only [toJsonItems, List.cons.injEq] at h
      obtain ⟨hnode, hrest⟩ := h
      have hab : a = b := by
        cases a <;> cases b <;> simp [toJson, Json.int] at hnode
        · obtain ⟨hkind, rfl⟩ := hnode
          rw [NodeKind.name_injective hkind]
        · obtain ⟨hkind, rfl⟩ := hnode
          rw [NodeKind.name_injective hkind]
        · obtain ⟨hitems, hkind⟩ := hnode
          rw [NodeKind.name_injective hkind]
          exact congrArg _ (ihc hitems)
      rw [hab, ih hrest]

/-- Outlines and JSON are faithful: different trees have different ones. An outline has one line for
    each node, in preorder. The line is indented by two spaces a level, and what stands behind them
    does not start with a space. -/
theorem outline_faithful :
    (∀ a b : List Node, outline a = outline b ↔ a = b) ∧
    (∀ a b : List Node, listToJson a = listToJson b ↔ a = b) ∧
    (∀ a : List Node, (outline a).toList.splitOn '\n' = ((preorder 0 a).map fun p =>
      List.replicate (2 * p.1) ' ' ++ (outlineLine p.2).toList) ++ [[]]) ∧
    ∀ n : Node, ∃ c cs, (outlineLine n).toList = c :: cs ∧ c ≠ ' ' := by
  refine ⟨fun a b => ⟨outline_inj, congrArg outline⟩, fun a b => ⟨fun h => ?_, congrArg listToJson⟩,
    splitOn_outline, exists_outlineLine_eq⟩
  exact toJsonItems_inj (Json.array.inj h)

end IdlBind.Node
