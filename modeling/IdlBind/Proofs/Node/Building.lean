import IdlBind.Proofs.Node.Chain
import Mathlib.Algebra.GroupWithZero.Nat
import Mathlib.Data.List.Infix
import Mathlib.Data.List.Perm.Basic

set_option autoImplicit false

/-! # Building trees in steps

Trees are built in steps that take chains and leave one in their place. A step joins the chains that
it takes, with a new node or without, or it changes the first node of a chain; there is nothing else
that it can do (`BuildStep.cases_of_run`). So it neither loses nor doubles a node, and those of a
chain stay together in their order. What a step keeps, any number of steps keep
(`keeps_of_runSteps`). -/

namespace IdlBind

open scoped List

/-- A step in building trees. The chains that are still to be used are on a stack: a step takes the
    topmost and puts its result there. A node that it takes is the first of a chain. -/
inductive BuildStep where
  /-- No nodes. -/
  | empty
  /-- A node in front of a chain. -/
  | new (kind : NodeKind) (payload : Payload)
  /-- A node with another kind and payload. -/
  | set (kind : NodeKind) (payload : Payload)
  /-- A node in front of the chain that is below it. -/
  | prepend
  /-- A node behind the chain that is below it. -/
  | append
  /-- So many nodes, the topmost first. -/
  | concat (count : Nat)
  /-- The chain below so many others, which comes to the top. -/
  | bring (depth : Nat)

namespace BuildStep

/-- The stack behind a step, if all is there that the step takes. -/
def run : BuildStep → List Chain → Option (List Chain)
  | .empty, chains => some (.empty :: chains)
  | .new kind payload, next :: chains => some ((LinkedNode.mk kind payload next).toChain :: chains)
  | .set kind payload, first :: chains =>
    first.head?.map fun node => (node.set kind payload).toChain :: chains
  | .prepend, first :: chain :: chains => first.head?.map fun node => chain.prepend node :: chains
  | .append, first :: chain :: chains => first.head?.map fun node => chain.append node :: chains
  | .concat count, chains =>
    ((chains.take count).mapM Chain.head?).map fun nodes => .concat nodes :: chains.drop count
  | .bring depth, chains => chains[depth]?.map fun chain => chain :: chains.eraseIdx depth
  | _, _ => none

/-- The stack behind several steps. -/
def runSteps : List BuildStep → List Chain → Option (List Chain)
  | [], chains => some chains
  | step :: steps, chains => (step.run chains).bind (runSteps steps)

/-- What a step writes into a node. -/
def written? : BuildStep → Option (NodeKind × Payload)
  | .new kind payload | .set kind payload => some (kind, payload)
  | _ => none

/-- Does the step make a node? -/
def isNew : BuildStep → Bool
  | .new .. => true
  | _ => false

/-- Does the step change a node? -/
def isSet : BuildStep → Bool
  | .set .. => true
  | _ => false

theorem length_filterMap_written? (steps : List BuildStep) :
    (steps.filterMap written?).length = steps.countP isSet + steps.countP isNew := by
  induction steps with
  | nil => rfl
  | cons step steps ih =>
    cases step with
    | new kind payload =>
      have hwritten : written? (.new kind payload) = some (kind, payload) := rfl
      rw [List.filterMap_cons_some hwritten, List.length_cons, ih,
        List.countP_cons_of_neg (by simp [isSet]), List.countP_cons_of_pos rfl]
      rfl
    | set kind payload =>
      have hwritten : written? (.set kind payload) = some (kind, payload) := rfl
      rw [List.filterMap_cons_some hwritten, List.length_cons, ih, List.countP_cons_of_pos rfl,
        List.countP_cons_of_neg (by simp [isNew])]
      omega
    | _ =>
      rw [List.filterMap_cons_none rfl, ih, List.countP_cons_of_neg (by simp [isSet]),
        List.countP_cons_of_neg (by simp [isNew])]

/-! ## What a step does -/

theorem eq_toChain_of_head? {chain : Chain} {node : LinkedNode} (h : chain.head? = some node) :
    chain = node.toChain := by
  cases chain with
  | empty => exact absurd h (by simp [Chain.head?])
  | link kind payload next =>
    obtain rfl := Option.some.inj h
    rfl

theorem eq_map_of_mapM_head? {chains : List Chain} {nodes : List LinkedNode}
    (h : chains.mapM Chain.head? = some nodes) : chains = nodes.map LinkedNode.toChain := by
  induction chains generalizing nodes with
  | nil =>
    obtain rfl := Option.some.inj h
    rfl
  | cons chain chains ih =>
    rw [List.mapM_cons] at h
    obtain ⟨node, hnode, h⟩ := Option.bind_eq_some_iff.1 h
    obtain ⟨nodes', hnodes, h⟩ := Option.bind_eq_some_iff.1 h
    obtain rfl := Option.some.inj h
    rw [eq_toChain_of_head? hnode, ih hnodes, List.map_cons]

/-- The step joins chains from a stack, in some order and behind what it writes. -/
structure Joins (step : BuildStep) (before after : List Chain) : Prop where
  not_isSet : step.isSet = false
  exists_joined : ∃ taken rest result, before.Perm (taken ++ rest) ∧ after = result :: rest ∧
    result.siblings = step.written?.toList ++ taken.flatMap Chain.siblings

/-- The step changes the first node of the topmost chain. -/
structure Changes (step : BuildStep) (before after : List Chain) : Prop where
  exists_changed : ∃ kind payload, ∃ (node : LinkedNode) (rest : List Chain),
    step = .set kind payload ∧ before = node.toChain :: rest ∧
      after = (node.set kind payload).toChain :: rest

/-- A step joins chains, or changes a node. -/
theorem cases_of_run {step : BuildStep} {before after : List Chain}
    (h : step.run before = some after) : step.Joins before after ∨ step.Changes before after := by
  cases step with
  | empty =>
    obtain rfl := Option.some.inj h
    exact .inl ⟨rfl, [], before, .empty, .refl _, rfl, rfl⟩
  | new kind payload =>
    rcases before with _ | ⟨next, rest⟩
    · exact absurd h (by simp [run])
    · obtain rfl := Option.some.inj h
      exact .inl ⟨rfl, [next], rest, _, .refl _, rfl, by simp [written?]⟩
  | set kind payload =>
    rcases before with _ | ⟨first, rest⟩
    · exact absurd h (by simp [run])
    · obtain ⟨node, hnode, rfl⟩ := Option.map_eq_some_iff.1 h
      obtain rfl := eq_toChain_of_head? hnode
      exact .inr ⟨kind, payload, node, rest, rfl, rfl, rfl⟩
  | prepend =>
    rcases before with _ | ⟨first, _ | ⟨chain, rest⟩⟩
    · exact absurd h (by simp [run])
    · exact absurd h (by simp [run])
    · obtain ⟨node, hnode, rfl⟩ := Option.map_eq_some_iff.1 h
      obtain rfl := eq_toChain_of_head? hnode
      refine .inl ⟨rfl, [node.toChain, chain], rest, _, .refl _, rfl, ?_⟩
      rw [Chain.siblings_prepend]
      simp [written?]
  | append =>
    rcases before with _ | ⟨first, _ | ⟨chain, rest⟩⟩
    · exact absurd h (by simp [run])
    · exact absurd h (by simp [run])
    · obtain ⟨node, hnode, rfl⟩ := Option.map_eq_some_iff.1 h
      obtain rfl := eq_toChain_of_head? hnode
      refine .inl ⟨rfl, [chain, node.toChain], rest, _, .swap _ _ _, rfl, ?_⟩
      rw [Chain.siblings_append]
      simp [written?]
  | concat count =>
    obtain ⟨nodes, hnodes, rfl⟩ := Option.map_eq_some_iff.1 h
    refine .inl ⟨rfl, before.take count, before.drop count, _, ?_, rfl, ?_⟩
    · rw [List.take_append_drop]
    · rw [Chain.siblings_concat, eq_map_of_mapM_head? hnodes, List.flatMap_map]
      rfl
  | bring depth =>
    obtain ⟨chain, hchain, rfl⟩ := Option.map_eq_some_iff.1 h
    obtain ⟨hdepth, rfl⟩ := List.getElem?_eq_some_iff.1 hchain
    exact .inl ⟨rfl, [before[depth]], before.eraseIdx depth, _,
      (List.getElem_cons_eraseIdx_perm hdepth).symm, rfl, by simp [written?]⟩

/-! ## What steps keep -/

/-- Steps keep the nodes on a stack: those that are there behind them, and what they replace, are
    those that were there before and what they write. Behind its first node, which may be replaced,
    a chain stays as it is within another one; where no step replaces a node, the whole chain does. -/
structure Keeps (steps : List BuildStep) (before after : List Chain) : Prop where
  nodes : ∃ replaced, replaced.length = steps.countP isSet ∧
    (replaced ++ after.flatMap Chain.siblings).Perm
      (steps.filterMap written? ++ before.flatMap Chain.siblings)
  tails : ∀ chain ∈ before, ∃ within ∈ after, chain.siblings.tail <:+: within.siblings.tail
  chains : (∀ step ∈ steps, step.isSet = false) →
    ∀ chain ∈ before, ∃ within ∈ after, chain.siblings <:+: within.siblings

theorem Keeps.refl (chains : List Chain) : Keeps [] chains chains :=
  ⟨⟨[], rfl, .refl _⟩, fun chain h => ⟨chain, h, List.infix_rfl⟩,
    fun _ chain h => ⟨chain, h, List.infix_rfl⟩⟩

theorem Keeps.append {steps more : List BuildStep} {before between after : List Chain}
    (h : Keeps steps before between) (h' : Keeps more between after) :
    Keeps (steps ++ more) before after := by
  refine ⟨?_, ?_, ?_⟩
  · obtain ⟨replaced, hlength, hperm⟩ := h.nodes
    obtain ⟨replaced', hlength', hperm'⟩ := h'.nodes
    refine ⟨replaced ++ replaced', ?_, ?_⟩
    · rw [List.length_append, hlength, hlength', List.countP_append]
    · -- what is replaced first changes places with what is written afterwards
      rw [List.filterMap_append, List.append_assoc, List.append_assoc]
      calc replaced ++ (replaced' ++ after.flatMap Chain.siblings)
          ~ replaced ++ (more.filterMap written? ++ between.flatMap Chain.siblings) :=
            hperm'.append_left _
        _ ~ more.filterMap written? ++ (replaced ++ between.flatMap Chain.siblings) :=
            List.perm_append_comm_assoc _ _ _
        _ ~ more.filterMap written? ++
              (steps.filterMap written? ++ before.flatMap Chain.siblings) :=
            hperm.append_left _
        _ ~ steps.filterMap written? ++
              (more.filterMap written? ++ before.flatMap Chain.siblings) :=
            List.perm_append_comm_assoc _ _ _
  · intro chain hchain
    obtain ⟨mid, hmid, hinfix⟩ := h.tails chain hchain
    obtain ⟨within, hwithin, hinfix'⟩ := h'.tails mid hmid
    exact ⟨within, hwithin, hinfix.trans hinfix'⟩
  · intro hset chain hchain
    obtain ⟨hsteps, hmore⟩ := List.forall_mem_append.1 hset
    obtain ⟨mid, hmid, hinfix⟩ := h.chains hsteps chain hchain
    obtain ⟨within, hwithin, hinfix'⟩ := h'.chains hmore mid hmid
    exact ⟨within, hwithin, hinfix.trans hinfix'⟩

theorem tail_infix_tail {α : Type} {a b : List α} (h : a <:+: b) : a.tail <:+: b.tail := by
  obtain ⟨front, back, rfl⟩ := h
  cases front with
  | nil =>
    cases a with
    | nil => exact List.nil_infix
    | cons x a => exact ⟨[], back, rfl⟩
  | cons y front =>
    have htail : a.tail <:+: a := (List.tail_suffix a).isInfix
    exact htail.trans ⟨front, back, rfl⟩

theorem Joins.keeps {step : BuildStep} {before after : List Chain} (h : step.Joins before after) :
    Keeps [step] before after := by
  obtain ⟨hset, taken, rest, result, hbefore, rfl, hresult⟩ := h
  have hwithin : ∀ chain ∈ before, ∃ within ∈ result :: rest,
      chain.siblings <:+: within.siblings := by
    intro chain hchain
    rcases List.mem_append.1 (hbefore.mem_iff.1 hchain) with htaken | hrest
    · refine ⟨result, List.mem_cons_self, ?_⟩
      rw [hresult, List.flatMap_def]
      exact (List.infix_of_mem_flatten (List.mem_map_of_mem htaken)).trans
        (List.suffix_append _ _).isInfix
    · exact ⟨chain, List.mem_cons_of_mem _ hrest, List.infix_rfl⟩
  refine ⟨⟨[], ?_, ?_⟩, ?_, fun _ => hwithin⟩
  · simp [hset]
  · have hflat : before.flatMap Chain.siblings ~
        taken.flatMap Chain.siblings ++ rest.flatMap Chain.siblings := by
      rw [← List.flatMap_append]
      exact hbefore.flatMap_right _
    have hwritten : [step].filterMap written? = step.written?.toList := by
      cases hstep : step.written? <;> simp [hstep]
    rw [List.nil_append, List.flatMap_cons, hresult, hwritten, List.append_assoc]
    exact (hflat.append_left _).symm
  · intro chain hchain
    obtain ⟨within, hmem, hinfix⟩ := hwithin chain hchain
    exact ⟨within, hmem, tail_infix_tail hinfix⟩

theorem Changes.keeps {step : BuildStep} {before after : List Chain}
    (h : step.Changes before after) : Keeps [step] before after := by
  obtain ⟨kind, payload, node, rest, rfl, rfl, rfl⟩ := h
  -- the old kind and payload of the node are what is replaced
  refine ⟨⟨[(node.kind, node.payload)], rfl, .swap _ _ _⟩, ?_, ?_⟩
  · intro chain hchain
    rcases List.mem_cons.1 hchain with rfl | hrest
    · exact ⟨_, List.mem_cons_self, List.infix_rfl⟩
    · exact ⟨chain, List.mem_cons_of_mem _ hrest, List.infix_rfl⟩
  · intro hset
    exact absurd (hset _ List.mem_cons_self) (by simp [isSet])

theorem keeps_of_run {step : BuildStep} {before after : List Chain}
    (h : step.run before = some after) : Keeps [step] before after := by
  rcases cases_of_run h with hjoins | hchanges
  · exact hjoins.keeps
  · exact hchanges.keeps

/-- What a step keeps, any number of steps keep. -/
theorem keeps_of_runSteps {steps : List BuildStep} {before after : List Chain}
    (h : runSteps steps before = some after) : Keeps steps before after := by
  induction steps generalizing before with
  | nil =>
    obtain rfl := Option.some.inj h
    exact .refl before
  | cons step steps ih =>
    obtain ⟨between, hstep, hsteps⟩ := Option.bind_eq_some_iff.1 h
    exact (keeps_of_run hstep).append (ih hsteps)

/-- The nodes on a stack become more with each step that makes one, and only then. -/
theorem Keeps.sum_length {steps : List BuildStep} {before after : List Chain}
    (h : Keeps steps before after) :
    (after.map Chain.length).sum = steps.countP isNew + (before.map Chain.length).sum := by
  obtain ⟨replaced, hlength, hperm⟩ := h.nodes
  have hsum := hperm.length_eq
  rw [List.length_append, List.length_append, List.length_flatMap, List.length_flatMap, hlength,
    length_filterMap_written?] at hsum
  show (after.map fun chain => chain.siblings.length).sum
    = steps.countP isNew + (before.map fun chain => chain.siblings.length).sum
  omega

end BuildStep

open BuildStep in
/-- Chains are sequences. To put them together is to join the sequences of their nodes, whatever is
    linked to the nodes that are given; lists of nodes can be built from either end, and a node that
    is changed keeps those behind it. So whatever the steps in which trees are built, nodes are
    neither lost nor doubled, and those of a chain stay together in their order. Chains hold lists
    of siblings, each list one way, and what is done to a chain is done to its list. -/
theorem chains_are_sequences :
    (∀ (chain : Chain) (node : LinkedNode),
      (chain.prepend node).siblings = node.toChain.siblings ++ chain.siblings ∧
      (chain.append node).siblings = chain.siblings ++ node.toChain.siblings ∧
      (chain.prepend node).length = node.toChain.length + chain.length ∧
      (chain.append node).length = chain.length + node.toChain.length) ∧
    (∀ nodes : List LinkedNode,
      (Chain.concat nodes).siblings = nodes.flatMap (·.toChain.siblings) ∧
      (Chain.concat nodes).length = (nodes.map (·.toChain.length)).sum ∧
      Chain.concat nodes = nodes.foldr (fun node chain => chain.prepend node) .empty ∧
      Chain.concat nodes = nodes.foldl Chain.append .empty) ∧
    (∀ (kind : NodeKind) (payload : Payload) (node : LinkedNode),
      (node.set kind payload).toChain.siblings = (kind, payload) :: node.toChain.siblings.tail) ∧
    (∀ steps before after, runSteps steps before = some after →
      Keeps steps before after ∧
      (after.map Chain.length).sum = steps.countP isNew + (before.map Chain.length).sum) ∧
    Function.Bijective Chain.toList ∧
    (∀ (chain : Chain) (node : LinkedNode),
      (chain.prepend node).toList = Node.prepend chain.toList node.toChain.toList ∧
      (chain.append node).toList = Node.append chain.toList node.toChain.toList) ∧
    (∀ nodes : List LinkedNode,
      (Chain.concat nodes).toList = Node.concat (nodes.map (·.toChain.toList))) ∧
    ∀ (kind : NodeKind) (payload : Payload) (node : LinkedNode),
      (node.set kind payload).toChain.toList
        = Node.setHead (payload.toNode kind) node.toChain.toList := by
  refine ⟨?_, ?_, ?_, ?_, Chain.toList_bijective, ?_, Chain.toList_concat, Chain.toList_set⟩
  · intro chain node
    refine ⟨chain.siblings_prepend node, chain.siblings_append node, ?_, ?_⟩
    · rw [Chain.length, chain.siblings_prepend, List.length_append]
      rfl
    · rw [Chain.length, chain.siblings_append, List.length_append]
      rfl
  · intro nodes
    refine ⟨Chain.siblings_concat nodes, ?_, Chain.concat_eq_foldr nodes,
      Chain.concat_eq_foldl nodes⟩
    rw [Chain.length, Chain.siblings_concat, List.length_flatMap]
    rfl
  · intro kind payload node
    rfl
  · intro steps before after h
    have hkeeps := keeps_of_runSteps h
    exact ⟨hkeeps, hkeeps.sum_length⟩
  · intro chain node
    exact ⟨chain.toList_prepend node, chain.toList_append node⟩

/-- Two linked nodes are put in front of a third, and then the first one is changed. -/
example : (BuildStep.runSteps [.empty, .new .ident (.text "c"), .empty, .new .ident (.text "b"),
    .new .ident (.text "a"), .prepend, .set .string (.text "d")] []).map (·.map Chain.siblings)
    = some [[(.string, .text "d"), (.ident, .text "b"), (.ident, .text "c")]] := rfl

end IdlBind
