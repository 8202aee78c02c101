import IdlBind.Proofs.Members.Resolution
import Mathlib.Data.List.Destutter

set_option autoImplicit false

/-! # Blocks partition the members

The ranges of blocks are the positions between which the attributes and the operations of a block
stand among all attributes and among all operations. They are what one notes who collects members
one by one and looks at the lengths of both lists before and after each block (`collected_eq`). Cut
along them, both lists fall into the members of the blocks, so that no position lies outside
(`mapM_slice?_rangesFrom`).

The blocks are those of the definitions on the path, in order (`interfaces_of_resolvePath`), for
trees of any shape (`blocks_partition_members`). -/

namespace IdlBind

open WebIdl (DefinitionKind)

/-! ## Ranges of consecutive parts -/

section

variable {α : Type}

/-- Ranges that start at `first`, follow each other without a gap and end at `last`. -/
inductive Consecutive : Nat → List (Nat × Nat) → Nat → Prop
  | nil (n : Nat) : Consecutive n [] n
  | cons {first next last : Nat} {ranges : List (Nat × Nat)} (h : first ≤ next)
      (rest : Consecutive next ranges last) : Consecutive first ((first, next) :: ranges) last

/-- The items of a list in a range. There are none if the range does not lie in the list. -/
def slice? (list : List α) (range : Nat × Nat) : Option (List α) :=
  if range.1 ≤ range.2 ∧ range.2 ≤ list.length then some (list.extract range.1 range.2) else none

/-- The ranges of parts that follow each other from a position. -/
def rangesFrom (first : Nat) : List (List α) → List (Nat × Nat)
  | [] => []
  | part :: parts => (first, first + part.length) :: rangesFrom (first + part.length) parts

theorem consecutive_rangesFrom (first : Nat) (parts : List (List α)) :
    Consecutive first (rangesFrom first parts) (first + parts.flatten.length) := by
  induction parts generalizing first with
  | nil => exact .nil first
  | cons part parts ih =>
    have hrest := ih (first + part.length)
    rw [Nat.add_assoc, ← List.length_append] at hrest
    exact .cons (Nat.le_add_right ..) hrest

theorem slice?_append (front part back : List α) :
    slice? (front ++ (part ++ back)) (front.length, front.length + part.length) = some part := by
  have hle : front.length + part.length ≤ (front ++ (part ++ back)).length := by
    simp only [List.length_append]
    omega
  rw [slice?, if_pos ⟨Nat.le_add_right .., hle⟩]
  simp [List.extract_eq_take_drop]

/-- Cut along their ranges, joined parts fall into the parts. -/
theorem mapM_slice?_rangesFrom (front : List α) (parts : List (List α)) :
    (rangesFrom front.length parts).mapM (slice? (front ++ parts.flatten)) = some parts := by
  induction parts generalizing front with
  | nil => rfl
  | cons part parts ih =>
    have hrest := ih (front ++ part)
    rw [List.length_append, List.append_assoc] at hrest
    rw [rangesFrom, List.mapM_cons, List.flatten_cons, slice?_append, hrest]
    rfl

end

/-! ## Ranges of blocks -/

namespace BlockRange

/-- Where the attributes of the block stand. -/
def attributes (r : BlockRange) : Nat × Nat := (r.attributeStart, r.attributeEnd)

/-- Where the operations of the block stand. -/
def operations (r : BlockRange) : Nat × Nat := (r.operationStart, r.operationEnd)

end BlockRange

/-- The attributes in the range of a block. -/
def Members.attributesIn? (m : Members) (r : BlockRange) : Option (List ResolvedAttribute) :=
  slice? m.attributes r.attributes

/-- The operations in the range of a block. -/
def Members.operationsIn? (m : Members) (r : BlockRange) : Option (List ResolvedOperation) :=
  slice? m.operations r.operations

section

variable (attributeStart operationStart : Nat) (blocks : List MemberBlock)

theorem map_interface_blockRangesFrom :
    (blockRangesFrom attributeStart operationStart blocks).map BlockRange.interface
      = blocks.map MemberBlock.interface := by
  induction blocks generalizing attributeStart operationStart with
  | nil => rfl
  | cons b blocks ih => rw [blockRangesFrom, List.map_cons, ih, List.map_cons]

theorem map_attributes_blockRangesFrom :
    (blockRangesFrom attributeStart operationStart blocks).map BlockRange.attributes
      = rangesFrom attributeStart (blocks.map MemberBlock.attributes) := by
  induction blocks generalizing attributeStart operationStart with
  | nil => rfl
  | cons b blocks ih => rw [blockRangesFrom, List.map_cons, ih, List.map_cons, rangesFrom]; rfl

theorem map_operations_blockRangesFrom :
    (blockRangesFrom attributeStart operationStart blocks).map BlockRange.operations
      = rangesFrom operationStart (blocks.map MemberBlock.operations) := by
  induction blocks generalizing attributeStart operationStart with
  | nil => rfl
  | cons b blocks ih => rw [blockRangesFrom, List.map_cons, ih, List.map_cons, rangesFrom]; rfl

end

theorem mapM_attributesIn? (m : Members) :
    m.blockRanges.mapM m.attributesIn? = some (m.blocks.map MemberBlock.attributes) := by
  have hslices := mapM_slice?_rangesFrom [] (m.blocks.map MemberBlock.attributes)
  rw [List.length_nil, ← map_attributes_blockRangesFrom 0 0, List.mapM_map] at hslices
  exact hslices

theorem mapM_operationsIn? (m : Members) :
    m.blockRanges.mapM m.operationsIn? = some (m.blocks.map MemberBlock.operations) := by
  have hslices := mapM_slice?_rangesFrom [] (m.blocks.map MemberBlock.operations)
  rw [List.length_nil, ← map_operations_blockRangesFrom 0 0, List.mapM_map] at hslices
  exact hslices

/-! ## Collecting member by member -/

/-- Members that are collected one by one, with the ranges of the blocks that are complete. -/
structure Collected where
  attributes : List ResolvedAttribute
  operations : List ResolvedOperation
  ranges : List BlockRange

namespace Collected

/-- One more member. -/
def add (c : Collected) : ResolvedMember → Collected
  | .attribute a => { c with attributes := c.attributes ++ [a] }
  | .operation o => { c with operations := c.operations ++ [o] }

/-- One more block, with the lengths of both lists before and after its members. -/
def addBlock (c : Collected) (b : MemberBlock) : Collected :=
  let filled := b.members.foldl add c
  { filled with
    ranges := filled.ranges ++ [⟨b.interface, c.attributes.length, filled.attributes.length,
      c.operations.length, filled.operations.length⟩] }

theorem foldl_add (members : List ResolvedMember) (c : Collected) :
    members.foldl add c = ⟨c.attributes ++ members.filterMap ResolvedMember.attribute?,
      c.operations ++ members.filterMap ResolvedMember.operation?, c.ranges⟩ := by
  induction members generalizing c with
  | nil => simp
  | cons m members ih =>
    rw [List.foldl_cons, ih]
    cases m <;>
      simp [add, ResolvedMember.attribute?, ResolvedMember.operation?, List.filterMap_cons]

theorem foldl_addBlock (blocks : List MemberBlock) (c : Collected) :
    blocks.foldl addBlock c = ⟨c.attributes ++ blocks.flatMap MemberBlock.attributes,
      c.operations ++ blocks.flatMap MemberBlock.operations,
      c.ranges ++ blockRangesFrom c.attributes.length c.operations.length blocks⟩ := by
  induction blocks generalizing c with
  | nil => simp [blockRangesFrom]
  | cons b blocks ih =>
    rw [List.foldl_cons, ih, addBlock, foldl_add]
    simp [blockRangesFrom, MemberBlock.attributes, MemberBlock.operations]

end Collected

/-- To collect the members one by one gives all attributes, all operations and the ranges. -/
theorem collected_eq (m : Members) :
    m.blocks.foldl Collected.addBlock ⟨[], [], []⟩
      = ⟨m.attributes, m.operations, m.blockRanges⟩ := by
  rw [Collected.foldl_addBlock]
  rfl

/-! ## Blocks of a path -/

/-- The name of the definition that declares a member. -/
def ResolvedMember.interface : ResolvedMember → String
  | .attribute a => a.interface
  | .operation o => o.interface

theorem interface_of_resolveAttribute {interface : String} {tree : Node} {a : ResolvedAttribute}
    (h : resolveAttribute interface tree = .ok a) : a.interface = interface := by
  unfold resolveAttribute at h
  split at h
  · exact absurd h (by simp [throw, throwThe, MonadExceptOf.throw])
  · obtain ⟨modifiers, -, ha⟩ := exists_of_bind_eq_ok h
    obtain rfl := Except.ok.inj ha
    rfl

theorem interface_of_resolveOperation {interface : String} {tree : Node} {o : ResolvedOperation}
    (h : resolveOperation interface tree = .ok o) : o.interface = interface := by
  obtain ⟨modifiers, -, ho⟩ := exists_of_bind_eq_ok h
  obtain rfl := Except.ok.inj ho
  rfl

/-- Members are declared by the definition in which their trees stand. -/
theorem interface_of_resolveMembers {interface : String} {trees : List Node}
    {members : List ResolvedMember} (h : resolveMembers interface trees = .ok members) :
    ∀ m ∈ members, m.interface = interface := by
  induction trees generalizing members with
  | nil =>
    obtain rfl := Except.ok.inj h
    exact fun m hm => absurd hm List.not_mem_nil
  | cons n trees ih =>
    unfold resolveMembers at h
    split at h
    · obtain ⟨a, ha, hmore⟩ := exists_of_bind_eq_ok h
      obtain ⟨more, hrest, hmembers⟩ := exists_of_bind_eq_ok hmore
      obtain rfl := Except.ok.inj hmembers
      exact List.forall_mem_cons.2 ⟨interface_of_resolveAttribute ha, ih hrest⟩
    · obtain ⟨o, ho, hmore⟩ := exists_of_bind_eq_ok h
      obtain ⟨more, hrest, hmembers⟩ := exists_of_bind_eq_ok hmore
      obtain rfl := Except.ok.inj hmembers
      exact List.forall_mem_cons.2 ⟨interface_of_resolveOperation ho, ih hrest⟩
    · exact ih h

/-- A definition gives a block for each of its lists of members. -/
theorem interfaces_of_resolveBlocks {interface : String} {d : Node} {blocks : List MemberBlock}
    (h : resolveBlocks interface d = .ok blocks) :
    blocks.map MemberBlock.interface
        = (Node.eachKind .interfaceMembers d.children).map (fun _ => interface) ∧
      ∀ b ∈ blocks, ∀ m ∈ b.members, m.interface = b.interface := by
  unfold resolveBlocks at h
  generalize Node.eachKind .interfaceMembers d.children = trees at h
  induction trees generalizing blocks with
  | nil =>
    obtain rfl := Except.ok.inj h
    exact ⟨rfl, fun b hb => absurd hb List.not_mem_nil⟩
  | cons tree trees ih =>
    rw [List.mapM_cons] at h
    obtain ⟨b, hb, hmore⟩ := exists_of_bind_eq_ok h
    obtain ⟨more, hrest, hblocks⟩ := exists_of_bind_eq_ok hmore
    obtain rfl := Except.ok.inj hblocks
    obtain ⟨members, hmembers, hblock⟩ := exists_of_bind_eq_ok hb
    obtain rfl := Except.ok.inj hblock
    obtain ⟨hinterfaces, hdeclared⟩ := ih hrest
    refine ⟨by rw [List.map_cons, List.map_cons, hinterfaces], ?_⟩
    exact List.forall_mem_cons.2 ⟨interface_of_resolveMembers hmembers, hdeclared⟩

/-- A path gives the blocks of its definitions, one definition after the other. -/
theorem interfaces_of_resolvePath {path : List (String × Node)} {blocks : List MemberBlock}
    (h : resolvePath path = .ok blocks) :
    blocks.map MemberBlock.interface = path.flatMap (fun p =>
        (Node.eachKind .interfaceMembers p.2.children).map fun _ => p.1) ∧
      ∀ b ∈ blocks, ∀ m ∈ b.members, m.interface = b.interface := by
  induction path generalizing blocks with
  | nil =>
    obtain rfl := Except.ok.inj h
    exact ⟨rfl, fun b hb => absurd hb List.not_mem_nil⟩
  | cons p path ih =>
    obtain ⟨name, d⟩ := p
    rw [resolvePath] at h
    obtain ⟨first, hfirst, hmore⟩ := exists_of_bind_eq_ok h
    obtain ⟨more, hrest, hblocks⟩ := exists_of_bind_eq_ok hmore
    obtain rfl := Except.ok.inj hblocks
    obtain ⟨hnames, hdeclared⟩ := interfaces_of_resolveBlocks hfirst
    obtain ⟨hnames', hdeclared'⟩ := ih hrest
    refine ⟨by rw [List.map_append, hnames, hnames', List.flatMap_cons], ?_⟩
    exact List.forall_mem_append.2 ⟨hdeclared, hdeclared'⟩

/-- The members to which a name resolves have a block for each list of members of the definitions on
    the path, and each member of a block is declared by the definition of the block. -/
theorem interfaces_of_resolve {definitions : List Node} {name : String} {m : Members}
    (h : resolve definitions name = .ok m) :
    m.blocks.map MemberBlock.interface = m.chain.flatMap (fun owner =>
        (memberTrees definitions m.kind owner).map fun _ => owner) ∧
      ∀ b ∈ m.blocks, ∀ x ∈ b.members, x.interface = b.interface := by
  obtain ⟨-, -, hchain, hblocks⟩ := resolve_eq_ok_iff_ancestry.1 h
  obtain ⟨hnames, hdeclared⟩ := interfaces_of_resolvePath hblocks
  refine ⟨?_, hdeclared⟩
  rw [hnames, ← hchain, List.flatMap_map]
  refine List.flatMap_congr fun p hp => ?_
  have hmeaning : meaning? definitions m.kind p.1 = some p.2 := meaning?_of_mem_path hp
  have htrees : memberTrees definitions m.kind p.1
      = (Node.eachKind .interfaceMembers p.2.children).map Node.children := by
    simp [memberTrees, hmeaning]
  rw [htrees, List.map_map]
  rfl

theorem interface_of_mem_attributes {b : MemberBlock}
    (h : ∀ m ∈ b.members, m.interface = b.interface) :
    ∀ a ∈ b.attributes, a.interface = b.interface := by
  intro a ha
  obtain ⟨m, hm, hattribute⟩ := List.mem_filterMap.1 ha
  rcases m with a' | o
  · obtain rfl := Option.some.inj hattribute
    exact h _ hm
  · exact absurd hattribute (by simp [ResolvedMember.attribute?])

theorem interface_of_mem_operations {b : MemberBlock}
    (h : ∀ m ∈ b.members, m.interface = b.interface) :
    ∀ o ∈ b.operations, o.interface = b.interface := by
  intro o ho
  obtain ⟨m, hm, hoperation⟩ := List.mem_filterMap.1 ho
  rcases m with a | o'
  · exact absurd hoperation (by simp [ResolvedMember.operation?])
  · obtain rfl := Option.some.inj hoperation
    exact h _ hm

/-! ## Runs of blocks -/

section

variable {α : Type} [DecidableEq α] (count : α → Nat)

theorem destutter'_replicate_append (a : α) (k : Nat) (rest : List α) :
    (List.replicate k a ++ rest).destutter' (· ≠ ·) a = rest.destutter' (· ≠ ·) a := by
  induction k with
  | zero => rfl
  | succ k ih =>
    rw [List.replicate_succ, List.cons_append, List.destutter'_cons_neg _ (by simp), ih]

theorem destutter'_runs_sublist (a : α) (names : List α) :
    ((names.flatMap fun n => List.replicate (count n) n).destutter' (· ≠ ·) a).Sublist
      (a :: names) := by
  induction names generalizing a with
  | nil => exact List.Sublist.refl _
  | cons n names ih =>
    rw [List.flatMap_cons]
    cases count n with
    | zero => exact (ih a).trans ((List.sublist_cons_self n names).cons_cons a)
    | succ k =>
      rw [List.replicate_succ, List.cons_append]
      by_cases hne : a ≠ n
      · rw [List.destutter'_cons_pos _ hne, destutter'_replicate_append]
        exact (ih n).cons_cons a
      · obtain rfl := not_not.1 hne
        rw [List.destutter'_cons_neg _ hne, destutter'_replicate_append]
        exact (ih a).cons a

/-- Of names that stand several times, or never, in a row each, every row leaves one. -/
theorem destutter_runs_sublist (names : List α) :
    ((names.flatMap fun n => List.replicate (count n) n).destutter (· ≠ ·)).Sublist names := by
  induction names with
  | nil => exact List.Sublist.refl _
  | cons n names ih =>
    rw [List.flatMap_cons]
    cases count n with
    | zero => exact ih.cons n
    | succ k =>
      rw [List.replicate_succ, List.cons_append, List.destutter_cons', destutter'_replicate_append]
      exact destutter'_runs_sublist count n names

end

/-! ## The partition -/

theorem forall₂_interface {β : Type} {blocks : List MemberBlock} {ranges : List BlockRange}
    {items : MemberBlock → List β} {owner : β → String}
    (hranges : ranges.map BlockRange.interface = blocks.map MemberBlock.interface)
    (howner : ∀ b ∈ blocks, ∀ x ∈ items b, owner x = b.interface) :
    List.Forall₂ (fun r part => ∀ x ∈ part, owner x = r.interface) ranges (blocks.map items) := by
  induction blocks generalizing ranges with
  | nil =>
    obtain rfl := List.map_eq_nil_iff.1 hranges
    exact .nil
  | cons b blocks ih =>
    obtain ⟨r, ranges, rfl, hr, hrest⟩ := List.map_eq_cons_iff.1 hranges
    obtain ⟨hb, hblocks⟩ := List.forall_mem_cons.1 howner
    exact .cons (fun x hx => (hb x hx).trans hr.symm) (ih hrest hblocks)

/-- The blocks partition the members to which a name resolves, whatever the trees look like. Their
    ranges are noted while the members are collected. The ranges among the attributes start at 0,
    follow each other without a gap and end behind the last attribute, and so do those among the
    operations. All can be cut out; the cuts joined are all attributes and all operations, and what
    is in them is declared by the definition of the block. There is a block for each list of members
    of the definitions on the path, in order. -/
theorem blocks_partition_members {definitions : List Node} {name : String} {m : Members}
    (h : resolve definitions name = .ok m) :
    m.blocks.foldl Collected.addBlock ⟨[], [], []⟩ = ⟨m.attributes, m.operations, m.blockRanges⟩ ∧
    Consecutive 0 (m.blockRanges.map BlockRange.attributes) m.attributes.length ∧
    Consecutive 0 (m.blockRanges.map BlockRange.operations) m.operations.length ∧
    (∃ parts, m.blockRanges.mapM m.attributesIn? = some parts ∧ parts.flatten = m.attributes ∧
      List.Forall₂ (fun r part => ∀ a ∈ part, a.interface = r.interface) m.blockRanges parts) ∧
    (∃ parts, m.blockRanges.mapM m.operationsIn? = some parts ∧ parts.flatten = m.operations ∧
      List.Forall₂ (fun r part => ∀ o ∈ part, o.interface = r.interface) m.blockRanges parts) ∧
    m.blockRanges.map BlockRange.interface = m.chain.flatMap (fun owner =>
      (memberTrees definitions m.kind owner).map fun _ => owner) ∧
    ((m.blockRanges.map BlockRange.interface).destutter (· ≠ ·)).Sublist m.chain := by
  obtain ⟨hinterfaces, hdeclared⟩ := interfaces_of_resolve h
  have hranges : m.blockRanges.map BlockRange.interface = m.blocks.map MemberBlock.interface :=
    map_interface_blockRangesFrom 0 0 m.blocks
  refine ⟨collected_eq m, ?_, ?_, ⟨_, mapM_attributesIn? m, rfl, ?_⟩,
    ⟨_, mapM_operationsIn? m, rfl, ?_⟩, hranges.trans hinterfaces, ?_⟩
  · have hconsecutive := consecutive_rangesFrom 0 (m.blocks.map MemberBlock.attributes)
    rw [Nat.zero_add, ← map_attributes_blockRangesFrom 0 0] at hconsecutive
    exact hconsecutive
  · have hconsecutive := consecutive_rangesFrom 0 (m.blocks.map MemberBlock.operations)
    rw [Nat.zero_add, ← map_operations_blockRangesFrom 0 0] at hconsecutive
    exact hconsecutive
  · exact forall₂_interface hranges fun b hb => interface_of_mem_attributes (hdeclared b hb)
  · exact forall₂_interface hranges fun b hb => interface_of_mem_operations (hdeclared b hb)
  · rw [hranges, hinterfaces]
    simp only [List.map_const']
    exact destutter_runs_sublist _ m.chain

/-- An interface with a block of both kinds of members and an empty one, its parent without blocks,
    and the parent of that with one operation; nodes of other kinds stand between. -/
def ladder : List Node :=
  [.list .interface [.text .ident "C", .text .interfaceInheritance "B",
    .list .interfaceMembers
      [.list .attribute <| [.text .ident "x"], .list .operation [], .int .type 1],
    .list .interfaceMembers []],
   .int .interface 0,
   .list .interface [.text .ident "B", .text .interfaceInheritance "A"],
   .list .interface [.text .ident "A", .list .interfaceMembers [.list .operation []]]]

/-- The members of the first interface. -/
def ladderMembers : Members := ⟨.interface, ["C", "B", "A"],
  [⟨"C", [.attribute ⟨"C", "x", false, none⟩, .operation ⟨"C", none, [], []⟩]⟩, ⟨"C", []⟩,
   ⟨"A", [.operation ⟨"A", none, [], []⟩]⟩]⟩

/-- The parent without blocks has no range, the empty block has an empty one. -/
theorem blocks_partition_ladder : resolve ladder "C" = .ok ladderMembers ∧
    ladderMembers.blockRanges = [⟨"C", 0, 1, 0, 1⟩, ⟨"C", 1, 1, 1, 1⟩, ⟨"A", 1, 1, 1, 2⟩] ∧
    Consecutive 0 [(0, 1), (1, 1), (1, 1)] 1 ∧ Consecutive 0 [(0, 1), (1, 1), (1, 2)] 2 ∧
    ["C", "A"].Sublist ladderMembers.chain := by
  have hresolve : resolve ladder "C" = .ok ladderMembers := by cbv
  obtain ⟨-, hattributes, hoperations, -, -, -, hnames⟩ := blocks_partition_members hresolve
  exact ⟨hresolve, rfl, hattributes, hoperations, hnames⟩

end IdlBind
