import IdlBind.Proofs.Members.Names
import IdlBind.Proofs.WebIdl.Transparency
import IdlBind.Proofs.WebIdl.WrittenOperations

set_option autoImplicit false

/-! # Special operations

An operation must not be `readonly`, and it may go without a name only if one of its modifiers makes
it special. The readers take any modifiers: a source is accepted whether or not its operations
follow this rule, and the nodes of operations follow it exactly if what is written does
(`modifier_rule_is_kept_as_written`). -/

namespace IdlBind

open WebIdl (Argument Definition Document Member Modifier TypeExpr WritesOperation)

/-! ## The rule -/

/-- The rule for the modifiers of an operation with this name, if it has one. -/
def FollowsModifierRule (modifiers : List Modifier) (name? : Option String) : Prop :=
  .readOnly ∉ modifiers ∧ (name? = none → ∃ m ∈ modifiers, m.isSpecial = true)

/-- The rule for the modifiers, read off the node of an operation. -/
def Node.FollowsModifierRule (n : Node) : Prop :=
  Node.int .modifier Modifier.readOnly.code ∉ n.children ∧
    (n.child? .ident = none →
      ∃ m ∈ Modifier.all, m.isSpecial = true ∧ Node.int .modifier m.code ∈ n.children)

instance (modifiers : List Modifier) (name? : Option String) :
    Decidable (FollowsModifierRule modifiers name?) :=
  inferInstanceAs (Decidable (_ ∧ (_ → _)))

instance (n : Node) : Decidable n.FollowsModifierRule :=
  inferInstanceAs (Decidable (_ ∧ (_ → _)))

theorem code_mem_listToNodes_iff {m : Modifier} {modifiers : List Modifier} :
    Node.int .modifier m.code ∈ Modifier.listToNodes modifiers ↔ m ∈ modifiers := by
  constructor
  · intro h
    obtain ⟨m', hm', heq⟩ := List.mem_map.1 h
    have hcode : Modifier.ofCode? m'.code = Modifier.ofCode? m.code :=
      congrArg Modifier.ofCode? (Node.int.inj heq).2
    rw [Modifier.ofCode?_code, Modifier.ofCode?_code] at hcode
    exact Option.some.inj hcode ▸ hm'
  · exact fun h => List.mem_map_of_mem h

theorem code_mem_children_operation_iff {m : Modifier} {modifiers : List Modifier}
    {type : TypeExpr} {name? : Option String} {arguments : List Argument} :
    Node.int .modifier m.code ∈ (Member.operation modifiers type name? arguments).toNode.children ↔
      m ∈ modifiers := by
  have htype : Node.int .modifier m.code ≠ type.toNode := fun heq => by
    have hkind := congrArg Node.kind heq
    rw [type.kind_toNode] at hkind
    exact absurd hkind (by simp)
  simp [Member.toNode, code_mem_listToNodes_iff, htype]

/-- The node of an operation follows the rule if the operation does. -/
theorem followsModifierRule_toNode_iff {modifiers : List Modifier} {type : TypeExpr}
    {name? : Option String} {arguments : List Argument} :
    (Member.operation modifiers type name? arguments).toNode.FollowsModifierRule ↔
      FollowsModifierRule modifiers name? := by
  have hspecial : (∃ m ∈ Modifier.all, m.isSpecial = true ∧ m ∈ modifiers) ↔
      ∃ m ∈ modifiers, m.isSpecial = true := by
    constructor
    · rintro ⟨m, -, hm, hmem⟩
      exact ⟨m, hmem, hm⟩
    · rintro ⟨m, hmem, hm⟩
      exact ⟨m, by cases m <;> decide, hm, hmem⟩
  simp only [Node.FollowsModifierRule, FollowsModifierRule, code_mem_children_operation_iff,
    child?_operation, Option.map_eq_none_iff, hspecial]

theorem followsModifierRule_stringifier : Member.stringifier.toNode.FollowsModifierRule := by
  decide

/-! ## What is resolved -/

theorem declaredModifiers_operation (modifiers : List Modifier) (type : TypeExpr)
    (name? : Option String) (arguments : List Argument) :
    declaredModifiers (Member.operation modifiers type name? arguments).toNode = modifiers := by
  cases name? <;>
    simp [declaredModifiers, Member.toNode, Node.eachKind, Modifier.listToNodes, type.kind_toNode,
      List.filterMap_map, List.filter_map, Function.comp_def, Node.int?]

/-- Every operation to which a name resolves is declared by a member of a definition. -/
theorem exists_member_of_resolve {doc : Document} {name : String} {members : Members}
    (h : resolve doc.toNodes name = .ok members) {o : ResolvedOperation}
    (ho : o ∈ members.operations) :
    ∃ d ∈ doc.definitions, ∃ m ∈ d.blocks.flatten,
      m.toNode.kind = .operation ∧ declaredOperation d.name m.toNode = o := by
  obtain ⟨names, last, -, -, -, rfl⟩ :=
    (resolve_eq_ok_iff (fun _ => isDefinition_of_mem_toNodes) name members).1 h
  rw [operations_declaredMembers] at ho
  obtain ⟨owner, -, ho⟩ := List.mem_flatMap.1 ho
  obtain ⟨trees, htrees, ho⟩ := List.mem_flatMap.1 ho
  obtain ⟨d, hd, -, rfl, block, hblock, rfl⟩ := exists_block_of_mem_memberTrees htrees
  obtain ⟨n, hn, rfl⟩ := List.mem_map.1 ho
  obtain ⟨hmem, hkind⟩ := List.mem_filter.1 hn
  obtain ⟨m, hm, rfl⟩ := List.mem_map.1 hmem
  exact ⟨d, hd, m, List.mem_flatten.2 ⟨block, hblock, hm⟩, of_decide_eq_true hkind, rfl⟩

/-- Where all nodes of operations follow the rule, so do the operations to which names resolve. -/
theorem followsModifierRule_of_resolve {doc : Document}
    (hdoc : ∀ n ∈ Node.nodesOf doc.toNodes, n.kind = .operation → n.FollowsModifierRule)
    {name : String} {members : Members} (h : resolve doc.toNodes name = .ok members) :
    ∀ o ∈ members.operations, FollowsModifierRule o.modifiers o.name? := by
  intro o ho
  obtain ⟨d, hd, m, hm, hkind, rfl⟩ := exists_member_of_resolve h ho
  have hnode := hdoc m.toNode ((WebIdl.operation_mem_nodesOf_iff hkind).2 ⟨d, hd, m, hm, rfl⟩) hkind
  rcases m with ⟨modifiers, type, name⟩ | ⟨modifiers, type, name?, arguments⟩ | _
  · exact absurd hkind (by simp [Member.toNode])
  · rw [declaredOperation, declaredModifiers_operation, childText?_operation]
    exact followsModifierRule_toNode_iff.1 hnode
  · have hmodifiers : declaredModifiers Member.stringifier.toNode = [.stringifier] := rfl
    rw [declaredOperation, hmodifiers]
    show FollowsModifierRule [.stringifier] none
    decide

/-! ## What is written -/

/-- All operations follow the rule that are written in the tokens with a type. -/
def WritesByRule (tokens : List Token) : Prop :=
  ∀ modifiers name?, WritesOperation tokens modifiers name? → FollowsModifierRule modifiers name?

/-- The nodes of operations follow the rule exactly if all operations do that are written. -/
theorem forall_nodesOf_iff_writesByRule {tokens : List Token} {trees : List Node}
    (h : WebIdl.treesOf tokens = .ok trees) :
    (∀ n ∈ Node.nodesOf trees, n.kind = .operation → n.FollowsModifierRule) ↔
      WritesByRule tokens := by
  obtain ⟨haccepted, rfl⟩ := WebIdl.treesOf_eq_ok h
  constructor
  · intro hnodes modifiers name? hwrites
    obtain ⟨d, hd, type, list, hm⟩ := WebIdl.exists_mem_of_writesOperation haccepted hwrites
    obtain ⟨e, he, hm⟩ := WebIdl.exists_mem_insertAll_iff.2 ⟨d, hd, hm⟩
    have hnode := (WebIdl.operation_mem_nodesOf_iff rfl).2 ⟨e, he, _, hm, rfl⟩
    exact followsModifierRule_toNode_iff.1 (hnodes _ hnode rfl)
  · intro hwritten n hn hkind
    obtain ⟨e, he, m, hm, rfl⟩ := (WebIdl.operation_mem_nodesOf_iff hkind).1 hn
    obtain ⟨d, hd, hm⟩ := WebIdl.exists_mem_insertAll_iff.1 ⟨e, he, hm⟩
    rcases m with ⟨modifiers, type, name⟩ | ⟨modifiers, type, name?, arguments⟩ | _
    · exact absurd hkind (by simp [Member.toNode])
    · have hwrites := WebIdl.writesOperation_of_mem hd hm
      exact followsModifierRule_toNode_iff.2 (hwritten modifiers name? hwrites)
    · exact followsModifierRule_stringifier

/-- The rule for modifiers is kept as written. The nodes of the operations of a source that is
    accepted follow it exactly if all operations do that are written in the source with a type. Then
    an operation to which a name resolves, and which has no name of its own, has a modifier that
    makes it special. -/
theorem modifier_rule_is_kept_as_written {source : String} {stream : TokenStream}
    {trees : List Node} (hstream : TokenStream.ofString source = .ok stream)
    (haccepted : WebIdl.parse source = .ok trees) :
    ((∀ n ∈ Node.nodesOf trees, n.kind = .operation → n.FollowsModifierRule) ↔
      WritesByRule stream.ahead) ∧
    (WritesByRule stream.ahead → ∀ name members, resolve trees name = .ok members →
      ∀ o ∈ members.operations, FollowsModifierRule o.modifiers o.name?) := by
  rw [WebIdl.parse_eq_treesOf hstream] at haccepted
  have hiff := forall_nodesOf_iff_writesByRule haccepted
  refine ⟨hiff, fun hwritten name members hresolve => ?_⟩
  have hnodes := hiff.2 hwritten
  obtain ⟨-, rfl⟩ := WebIdl.treesOf_eq_ok haccepted
  exact followsModifierRule_of_resolve hnodes hresolve

/-- Special operations with a name and without one. -/
def storeSource : String :=
  "interface Store { getter long (long key); deleter void drop(); stringifier; };"

def store : Definition :=
  ⟨.interface, "Store", none, [[
    .operation [.getter] (.basic .long ⟨false, false, false⟩) none
      [⟨.required, .basic .long ⟨false, false, false⟩, "key"⟩],
    .operation [.deleter] (.basic .void ⟨false, false, false⟩) (some "drop") [],
    .stringifier]], false⟩

theorem modifier_rule_is_kept_as_written_store : ∃ stream members,
    TokenStream.ofString storeSource = .ok stream ∧
    WebIdl.parse storeSource = .ok [store.toNode] ∧ WritesByRule stream.ahead ∧
    resolve [store.toNode] "Store" = .ok members ∧ members.specialOperationCount = 2 ∧
    ∀ o ∈ members.operations, FollowsModifierRule o.modifiers o.name? := by
  have haccepted : WebIdl.parse storeSource = .ok [store.toNode] := by decide +kernel
  have hmembers : ∀ m ∈ store.blocks.flatten, m.toNode.kind = .operation →
      m.toNode.FollowsModifierRule := by
    decide +kernel
  have hnodes : ∀ n ∈ Node.nodesOf [store.toNode], n.kind = .operation →
      n.FollowsModifierRule := by
    intro n hn hkind
    have hn : n ∈ Node.nodesOf ([store].map Definition.toNode) := hn
    obtain ⟨d, hd, m, hm, rfl⟩ := (WebIdl.operation_mem_nodesOf_iff hkind).1 hn
    obtain rfl := List.mem_singleton.1 hd
    exact hmembers m hm hkind
  have hresolve : ((resolve [store.toNode] "Store").map Members.specialOperationCount) = .ok 2 := by
    decide +kernel
  obtain ⟨members, hresolve, hcount⟩ := exists_of_map_eq_ok hresolve
  rcases hstream : TokenStream.ofString storeSource with e | stream
  · rw [WebIdl.parse, WebIdl.Document.addSource, hstream] at haccepted
    exact absurd haccepted (by simp)
  · obtain ⟨hiff, hfollows⟩ := modifier_rule_is_kept_as_written hstream haccepted
    have hwrites := hiff.1 hnodes
    exact ⟨stream, members, rfl, haccepted, hwrites, hresolve, hcount,
      hfollows hwrites "Store" members hresolve⟩

/-- An operation without a name that is not special, and one that is `readonly`. -/
def gateSource : String := "interface Gate { long (); readonly long open(); };"

def gate : Definition :=
  ⟨.interface, "Gate", none, [[
    .operation [] (.basic .long ⟨false, false, false⟩) none [],
    .operation [.readOnly] (.basic .long ⟨false, false, false⟩) (some "open") []]], false⟩

theorem gate_breaks_modifier_rule : WebIdl.parse gateSource = .ok [gate.toNode] ∧
    (∃ n ∈ Node.nodesOf [gate.toNode], n.kind = .operation ∧ n.child? .ident = none ∧
      ∀ m : Modifier, m.isSpecial = true → Node.int .modifier m.code ∉ n.children) ∧
    ∃ n ∈ Node.nodesOf [gate.toNode], n.kind = .operation ∧
      Node.int .modifier Modifier.readOnly.code ∈ n.children := by
  have hmem : ∀ m ∈ gate.blocks.flatten, m.toNode.kind = .operation →
      m.toNode ∈ Node.nodesOf [gate.toNode] := fun m hm hkind =>
    (WebIdl.operation_mem_nodesOf_iff hkind).2 ⟨gate, List.mem_singleton_self gate, m, hm, rfl⟩
  refine ⟨by decide +kernel, ⟨_, hmem _ List.mem_cons_self rfl, rfl, rfl, ?_⟩,
    ⟨_, hmem _ (List.mem_cons_of_mem _ List.mem_cons_self) rfl, rfl, by decide⟩⟩
  intro m _
  cases m <;> decide

end IdlBind
