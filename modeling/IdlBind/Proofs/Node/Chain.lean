import IdlBind.Node.Chain
import Mathlib.Logic.Function.Basic

set_option autoImplicit false

/-! # Chains are sequences

Going along the links passes the nodes of a chain in their order, and what is written at the end
stands behind all of them (`siblings_toEnd_put`). So to put chains together is to join the sequences
of their nodes, also where a node that is given has others linked to it.

A chain holds a list of siblings, and each list is held by one chain (`toList_bijective`). What is
done to chains is what is done to their lists. -/

namespace IdlBind

namespace Chain

@[simp] theorem siblings_empty : Chain.empty.siblings = [] := rfl

@[simp] theorem siblings_link (kind : NodeKind) (payload : Payload) (next : Chain) :
    (Chain.link kind payload next).siblings = (kind, payload) :: next.siblings := rfl

@[simp] theorem siblings_toChain (node : LinkedNode) :
    node.toChain.siblings = (node.kind, node.payload) :: node.next.siblings := rfl

/-! ## The end of a chain -/

theorem siblings_put (c : Cursor) (chain : Chain) :
    (c.put chain).siblings = c.passed.reverse ++ chain.siblings := by
  obtain ⟨passed, held⟩ := c
  show (passed.foldl _ chain).siblings = passed.reverse ++ chain.siblings
  induction passed generalizing chain with
  | nil => rfl
  | cons pair passed ih =>
    rw [List.foldl_cons, ih, siblings_link, List.reverse_cons, List.append_assoc]
    rfl

theorem passed_follow (chain : Chain) (passed : List (NodeKind × Payload)) :
    (Cursor.follow chain passed).passed.reverse = passed.reverse ++ chain.siblings := by
  fun_induction Cursor.follow chain passed with
  | case1 passed => simp
  | case2 passed kind payload next ih =>
    rw [ih, List.reverse_cons, List.append_assoc]
    rfl

/-- What is written at the end stands behind the nodes in front of a link and behind those that the
    link holds. -/
theorem siblings_toEnd_put (c : Cursor) (chain : Chain) :
    (c.toEnd.put chain).siblings = c.passed.reverse ++ c.held.siblings ++ chain.siblings := by
  rw [siblings_put, Cursor.toEnd, passed_follow]

/-! ## Putting chains together -/

theorem siblings_prepend (chain : Chain) (node : LinkedNode) :
    (chain.prepend node).siblings = node.toChain.siblings ++ chain.siblings :=
  siblings_toEnd_put _ chain

theorem siblings_append (chain : Chain) (node : LinkedNode) :
    (chain.append node).siblings = chain.siblings ++ node.toChain.siblings :=
  siblings_toEnd_put _ node.toChain

theorem concat_eq_foldr (nodes : List LinkedNode) :
    concat nodes = nodes.foldr (fun node chain => chain.prepend node) .empty :=
  List.foldl_reverse

theorem siblings_concat (nodes : List LinkedNode) :
    (concat nodes).siblings = nodes.flatMap (·.toChain.siblings) := by
  rw [concat_eq_foldr]
  induction nodes with
  | nil => rfl
  | cons node nodes ih => rw [List.foldr_cons, siblings_prepend, ih, List.flatMap_cons]

theorem siblings_foldl_append (chain : Chain) (nodes : List LinkedNode) :
    (nodes.foldl append chain).siblings = chain.siblings ++ nodes.flatMap (·.toChain.siblings) := by
  induction nodes generalizing chain with
  | nil => simp
  | cons node nodes ih =>
    rw [List.foldl_cons, ih, siblings_append, List.flatMap_cons, List.append_assoc]

/-- What is met along the links is all that there is in a chain. -/
theorem siblings_inj {a b : Chain} (h : a.siblings = b.siblings) : a = b := by
  fun_induction siblings a generalizing b with
  | case1 =>
    cases b with
    | empty => rfl
    | link => exact absurd h (by simp)
  | case2 kind payload next ih =>
    cases b with
    | empty => exact absurd h (by simp)
    | link kind' payload' next' =>
      obtain ⟨hpair, hnext⟩ := List.cons.inj h
      obtain ⟨rfl, rfl⟩ := Prod.mk.inj hpair
      rw [ih hnext]

/-- Chains can be put together from either end. -/
theorem concat_eq_foldl (nodes : List LinkedNode) :
    concat nodes = nodes.foldl append .empty := by
  apply siblings_inj
  rw [siblings_concat, siblings_foldl_append, siblings_empty, List.nil_append]

/-! ## Chains and lists of siblings -/

end Chain

@[simp] theorem Payload.kind_toNode (payload : Payload) (kind : NodeKind) :
    (payload.toNode kind).kind = kind := by
  cases payload <;> rfl

mutual

theorem Payload.ofNode_toNode (payload : Payload) (kind : NodeKind) :
    Payload.ofNode (payload.toNode kind) = payload := by
  cases payload with
  | text => rfl
  | int => rfl
  | list children =>
    rw [Payload.toNode, Payload.ofNode, children.ofList_toList]

theorem Chain.ofList_toList (chain : Chain) : Chain.ofList chain.toList = chain := by
  cases chain with
  | empty => rfl
  | link kind payload next =>
    rw [Chain.toList, Chain.ofList, payload.kind_toNode, payload.ofNode_toNode,
      next.ofList_toList]

end

mutual

theorem Payload.toNode_ofNode (node : Node) : (Payload.ofNode node).toNode node.kind = node := by
  cases node with
  | text => rfl
  | int => rfl
  | list kind children =>
    rw [Payload.ofNode, Payload.toNode, Chain.toList_ofList children]
    rfl

theorem Chain.toList_ofList (nodes : List Node) : (Chain.ofList nodes).toList = nodes := by
  cases nodes with
  | nil => rfl
  | cons node rest =>
    rw [Chain.ofList, Chain.toList, Payload.toNode_ofNode node, Chain.toList_ofList rest]

end

namespace Chain

/-- Every list of siblings is held by one chain. -/
theorem toList_bijective : Function.Bijective toList :=
  ⟨Function.LeftInverse.injective ofList_toList, Function.RightInverse.surjective toList_ofList⟩

theorem toList_eq_map (chain : Chain) :
    chain.toList = chain.siblings.map fun (kind, payload) => payload.toNode kind := by
  fun_induction siblings chain with
  | case1 => rfl
  | case2 kind payload next ih => rw [toList, ih, List.map_cons]

theorem toList_prepend (chain : Chain) (node : LinkedNode) :
    (chain.prepend node).toList = Node.prepend chain.toList node.toChain.toList := by
  simp only [toList_eq_map, siblings_prepend, List.map_append, Node.prepend]

theorem toList_append (chain : Chain) (node : LinkedNode) :
    (chain.append node).toList = Node.append chain.toList node.toChain.toList := by
  simp only [toList_eq_map, siblings_append, List.map_append, Node.append]

theorem toList_concat (nodes : List LinkedNode) :
    (concat nodes).toList = Node.concat (nodes.map (·.toChain.toList)) := by
  rw [concat_eq_foldr]
  induction nodes with
  | nil => rfl
  | cons node nodes ih =>
    rw [List.foldr_cons, toList_prepend, ih]
    rfl

theorem toList_set (kind : NodeKind) (payload : Payload) (node : LinkedNode) :
    (node.set kind payload).toChain.toList
      = Node.setHead (payload.toNode kind) node.toChain.toList := rfl

end Chain
end IdlBind
