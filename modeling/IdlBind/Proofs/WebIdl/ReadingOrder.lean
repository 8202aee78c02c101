import IdlBind.Proofs.WebIdl.TreeShape

set_option autoImplicit false

/-! # The place of the leading definition

A definition that is not partial leads the partial ones with its key. Wherever it is read, its block
comes first and the blocks of the others keep their order. Its parent does not come first: an entry
has the first parent that was read (`exists_entry_of_lead`). So the tree of a definition is the same
for two places of it unless it has a parent, and a partial definition that was read before it has
another one (`moving_lead`). -/

namespace IdlBind.WebIdl

/-- The first parent among the definitions with a key. -/
def firstParent (key : DefinitionKind × String) (ds : List Definition) : Option String :=
  (ds.filter (·.key = key)).findSome? Definition.parent?

theorem firstParent_append (key : DefinitionKind × String) (ds es : List Definition) :
    firstParent key (ds ++ es) = (firstParent key ds).or (firstParent key es) := by
  rw [firstParent, List.filter_append, List.findSome?_append]
  rfl

theorem firstParent_cons_self (d : Definition) (ds : List Definition) :
    firstParent d.key (d :: ds) = d.parent?.or (firstParent d.key ds) := by
  rw [firstParent, List.filter_cons_of_pos (by simp), List.findSome?_cons]
  cases d.parent? <;> rfl

/-- The tree of a definition shows its parent. -/
theorem Definition.childText?_inheritance_toNode (d : Definition) :
    d.toNode.childText? .interfaceInheritance = d.parent? := by
  cases h : d.parent? <;>
    simp [toNode, h, Node.childText?, Node.child?, Node.text?]

variable {lead : Definition} {before after before' after' : List Definition}

/-- The entry of a definition that leads the partial ones with its key: its own block and then the
    others, and the first parent in the order of reading. -/
theorem exists_entry_of_lead (hlead : lead.isPartial = false)
    (hothers : ∀ d ∈ before ++ after, d.key = lead.key → d.isPartial = true) :
    ∃ e, (Document.empty.insertAll (before ++ lead :: after)).lookup? lead.key = some e ∧
      e.key = lead.key ∧
      e.blocks = lead.blocks ++
        ((before ++ after).filter (·.key = lead.key)).flatMap Definition.blocks ∧
      e.parent? = (firstParent lead.key before).or
        (lead.parent?.or (firstParent lead.key after)) := by
  have hparts : (before ++ lead :: after).filter (·.key = lead.key)
      = before.filter (·.key = lead.key) ++ lead :: after.filter (·.key = lead.key) := by
    rw [List.filter_append, List.filter_cons_of_pos (by simp)]
  have hmerge := isMergeOf_lookup?_insertAll (before ++ lead :: after) lead.key
  cases hentry : (Document.empty.insertAll (before ++ lead :: after)).lookup? lead.key with
  | none =>
    rw [hentry] at hmerge
    exact absurd (hparts.symm.trans hmerge) (by simp)
  | some e =>
    rw [hentry] at hmerge
    have hfront : ∀ d ∈ before.filter (·.key = lead.key), d.isPartial = true := by
      intro d hd
      obtain ⟨hmem, hkey⟩ := List.mem_filter.1 hd
      exact hothers d (List.mem_append_left _ hmem) (of_decide_eq_true hkey)
    refine ⟨e, rfl, Document.key_of_lookup? hentry, ?_, ?_⟩
    · rw [hmerge.blocks, hparts, leadFirst_append_cons hfront hlead, List.flatMap_cons,
        List.filter_append]
    · rw [← firstParent_cons_self, ← firstParent_append]
      exact hmerge.parent

/-- Of two places for a definition that leads the partial ones with its key, both give an entry with
    the same blocks. Its tree is the same if the definition has no parent; if it has one, the tree
    is the same where the partial definitions in front of both places give the same parent, or its
    own if they have none. -/
theorem moving_lead (hlead : lead.isPartial = false)
    (hothers : ∀ d ∈ before ++ after, d.key = lead.key → d.isPartial = true)
    (hmoved : before ++ after = before' ++ after') :
    ∃ e e' : Definition,
      Node.findNamed? lead.kind.nodeKind lead.name
        (Document.empty.insertAll (before ++ lead :: after)).toNodes = some e.toNode ∧
      Node.findNamed? lead.kind.nodeKind lead.name
        (Document.empty.insertAll (before' ++ lead :: after')).toNodes = some e'.toNode ∧
      e.blocks = e'.blocks ∧
      (e.toNode = e'.toNode ↔ ∀ own ∈ lead.parent?,
        (firstParent lead.key before).getD own = (firstParent lead.key before').getD own) := by
  obtain ⟨e, hentry, hkey, hblocks, hparent⟩ := exists_entry_of_lead hlead hothers
  obtain ⟨e', hentry', hkey', hblocks', hparent'⟩ :=
    exists_entry_of_lead hlead (hmoved ▸ hothers)
  have hfound : ∀ {doc : Document} {f : Definition}, doc.lookup? lead.key = some f →
      Node.findNamed? lead.kind.nodeKind lead.name doc.toNodes = some f.toNode := by
    intro doc f hf
    rw [Node.findNamed?, Node.find?, Node.findFrom_head_eq_find?, doc.find?_isNamed_toNodes]
    exact congrArg (Option.map Definition.toNode) hf
  have hsame : e.blocks = e'.blocks := by rw [hblocks, hblocks', hmoved]
  refine ⟨e, e', hfound hentry, hfound hentry', hsame, ?_⟩
  have htree : e.toNode = e'.toNode ↔ e.parent? = e'.parent? := by
    constructor
    · intro h
      rw [← e.childText?_inheritance_toNode, h, e'.childText?_inheritance_toNode]
    · intro h
      obtain ⟨hkind, hname⟩ := Prod.mk.inj (hkey.trans hkey'.symm)
      rw [Definition.toNode, Definition.toNode, hkind, hname, h, hsame]
  have hrest : (firstParent lead.key before).or (firstParent lead.key after)
      = (firstParent lead.key before').or (firstParent lead.key after') := by
    rw [← firstParent_append, hmoved, firstParent_append]
  rw [htree, hparent, hparent']
  cases lead.parent? with
  | none => simpa using hrest
  | some own =>
    cases firstParent lead.key before <;> cases firstParent lead.key before' <;> simp

/-- An interface with a parent. -/
def tile : Definition := ⟨.interface, "Tile", some "Shape", [[]], false⟩

/-- Two parts of the interface, of which the second has another parent. -/
def tileParts : List Definition :=
  [⟨.interface, "Tile", none, [[.stringifier]], true⟩, ⟨.interface, "Tile", some "Grid", [[]], true⟩]

theorem isPartial_of_mem_tileParts : ∀ d ∈ tileParts, d.key = tile.key → d.isPartial = true := by
  decide

/-- It makes no difference whether the interface is read before or after its first part. -/
theorem moving_lead_tile : tile.isPartial = false ∧
    (∀ d ∈ [] ++ tileParts, d.key = tile.key → d.isPartial = true) ∧
    [] ++ tileParts = tileParts.take 1 ++ tileParts.drop 1 ∧
    Node.findNamed? .interface "Tile" (Document.empty.insertAll ([] ++ tile :: tileParts)).toNodes
      = Node.findNamed? .interface "Tile"
        (Document.empty.insertAll (tileParts.take 1 ++ tile :: tileParts.drop 1)).toNodes := by
  have hmoved : [] ++ tileParts = tileParts.take 1 ++ tileParts.drop 1 := rfl
  obtain ⟨e, e', hentry, hentry', -, htree⟩ :=
    @moving_lead tile _ _ _ _ rfl isPartial_of_mem_tileParts hmoved
  have hsame : e.toNode = e'.toNode := htree.2 (by decide)
  exact ⟨rfl, isPartial_of_mem_tileParts, hmoved,
    hentry.trans ((congrArg some hsame).trans hentry'.symm)⟩

/-- Read after its second part, the interface has the parent of that part. -/
theorem parent_of_part_in_front : tile.isPartial = false ∧
    (∀ d ∈ tileParts, d.key = tile.key → d.isPartial = true) ∧
    Node.findNamed? .interface "Tile" (Document.empty.insertAll (tile :: tileParts)).toNodes
      ≠ Node.findNamed? .interface "Tile"
        (Document.empty.insertAll (tileParts ++ [tile])).toNodes ∧
    (Node.findNamed? .interface "Tile"
      (Document.empty.insertAll (tileParts ++ [tile])).toNodes).bind
        (Node.childText? .interfaceInheritance) = some "Grid" :=
  ⟨rfl, isPartial_of_mem_tileParts, by decide, by decide⟩

end IdlBind.WebIdl
