import IdlBind.Proofs.Binding.Grammar
import IdlBind.Proofs.Generation.Failures
import IdlBind.Proofs.Token.Identifiers

set_option autoImplicit false

/-! # Private fields of a description

The private fields of what is bound are the private entries of the description, in the order of its
tokens (`privateFields_eq`): an entry derives its field, and no other tokens look like a private
entry. -/

namespace IdlBind.Binding

/-! ## Private entries among tokens -/

/-- The field of the private entry that starts here. -/
def privateEntryAt? : List TokenKind → Option PrivateField
  | .ident keyword :: .string ctype :: .ident name :: _ =>
    if keyword = "private" then some ⟨ctype, name⟩ else none
  | _ => none

/-- The fields of the private entries among tokens, in order. -/
def privateEntries : List TokenKind → List PrivateField
  | [] => []
  | kind :: kinds => (privateEntryAt? (kind :: kinds)).toList ++ privateEntries kinds

theorem privateEntryAt?_of_ne {keyword : String} (h : keyword ≠ "private")
    (kinds : List TokenKind) : privateEntryAt? (.ident keyword :: kinds) = none := by
  unfold privateEntryAt?
  split
  · rename_i heq
    obtain ⟨hkeyword, -⟩ := List.cons.inj heq
    exact if_neg (TokenKind.ident.inj hkeyword ▸ h)
  · rfl

theorem ident_mem_of_mem_privateEntries {kinds : List TokenKind} {f : PrivateField}
    (h : f ∈ privateEntries kinds) : .ident f.name ∈ kinds := by
  induction kinds with
  | nil => exact absurd h List.not_mem_nil
  | cons kind kinds ih =>
    rcases List.mem_append.1 h with hstart | hmore
    · have hentry := Option.mem_toList.1 hstart
      unfold privateEntryAt? at hentry
      split at hentry
      · split at hentry
        · obtain rfl := Option.some.inj hentry
          simp_all
        · exact absurd hentry (by simp)
      · exact absurd hentry (by simp)
    · exact List.mem_cons_of_mem _ (ih hmore)

/-! ## Derived fields -/

/-- The fields of the private entries among the children of a block. -/
def fieldsOf (trees : List Node) : Except EmitError (List PrivateField) :=
  (Node.eachKind .bindingPrivate trees).mapM privateField

/-- The tokens have these private entries, whatever follows. -/
def HasPrivates (kinds : List TokenKind) (fields : List PrivateField) : Prop :=
  ∀ rest, privateEntries (kinds ++ rest) = fields ++ privateEntries rest

namespace HasPrivates

theorem nil : HasPrivates [] [] := fun _ => rfl

theorem append {kinds kinds' : List TokenKind} {fields fields' : List PrivateField}
    (h : HasPrivates kinds fields) (h' : HasPrivates kinds' fields') :
    HasPrivates (kinds ++ kinds') (fields ++ fields') := fun rest => by
  rw [List.append_assoc, h, h', List.append_assoc]

/-- A token behind which no private entry goes on. -/
theorem skip {kind : TokenKind} {kinds : List TokenKind} {fields : List PrivateField}
    (hkind : ∀ rest, privateEntryAt? (kind :: (kinds ++ rest)) = none)
    (h : HasPrivates kinds fields) : HasPrivates (kind :: kinds) fields := fun rest => by
  rw [List.cons_append, privateEntries, hkind, h]
  rfl

end HasPrivates

theorem IsEntry.hasPrivates {kinds : List TokenKind} {tree : Node} (h : IsEntry kinds tree) :
    ∃ fields, fieldsOf [tree] = .ok fields ∧ HasPrivates kinds fields := by
  cases h with
  | type name =>
    exact ⟨[], rfl, .skip (fun _ => rfl) (.skip (fun _ => rfl) (.skip (fun _ => rfl) .nil))⟩
  | interface name =>
    exact ⟨[], rfl, .skip (fun _ => rfl) (.skip (fun _ => rfl) (.skip (fun _ => rfl) .nil))⟩
  | privateField ctype name =>
    refine ⟨[⟨ctype, name⟩], rfl, fun rest => ?_⟩
    -- behind the keyword nothing starts a private entry
    have hbehind : HasPrivates [.string ctype, .ident name, .punct ';'] [] :=
      .skip (fun _ => rfl) (.skip (fun _ => rfl) (.skip (fun _ => rfl) .nil))
    have hstart : privateEntryAt?
        (.ident "private" :: ([.string ctype, .ident name, .punct ';'] ++ rest))
          = some ⟨ctype, name⟩ := rfl
    rw [List.cons_append, privateEntries, hstart, hbehind]
    rfl

theorem fieldsOf_append {trees trees' : List Node} {fields fields' : List PrivateField}
    (h : fieldsOf trees = .ok fields) (h' : fieldsOf trees' = .ok fields') :
    fieldsOf (trees ++ trees') = .ok (fields ++ fields') := by
  unfold fieldsOf Node.eachKind at *
  rw [List.filter_append, List.mapM_append, h, h']
  rfl

theorem hasPrivates_entries {kinds : List TokenKind} {trees : List Node}
    (h : IsSequence IsEntry kinds trees) :
    ∃ fields, fieldsOf trees = .ok fields ∧ HasPrivates kinds fields := by
  induction h with
  | nil => exact ⟨[], rfl, .nil⟩
  | cons hfirst _ ih =>
    obtain ⟨first, htree, hkinds⟩ := hfirst.hasPrivates
    obtain ⟨others, htrees, hrest⟩ := ih
    exact ⟨first ++ others, fieldsOf_append htree htrees, hkinds.append hrest⟩

theorem hasPrivates_lines {kinds : List TokenKind} {trees : List Node}
    (h : IsSequence IsLine kinds trees) : HasPrivates kinds [] := by
  induction h with
  | nil => exact .nil
  | cons hfirst _ ih =>
    obtain ⟨text⟩ := hfirst
    exact .skip (fun _ => rfl) ih

theorem IsClosing.hasPrivates {closing : List TokenKind} (h : IsClosing closing) :
    HasPrivates closing [] := by
  cases h with
  | absent => exact .nil
  | present => exact .skip (fun _ => rfl) .nil

/-- A statement that is no block has no private entries. -/
theorem IsStatement.hasPrivates {kinds : List TokenKind} {tree : Node} (h : IsStatement kinds tree)
    (hplain : tree.kind ≠ .binding) : HasPrivates kinds [] := by
  cases h with
  | webIdlFile reference =>
    exact .skip (fun _ => rfl) (.skip (fun _ => rfl) (.skip (fun _ => rfl) .nil))
  | headerComment hlines _ =>
    exact .skip (fun _ => privateEntryAt?_of_ne (by decide) _)
      ((hasPrivates_lines hlines).append (.skip (fun _ => rfl) .nil))
  | preamble code hclosing =>
    exact .skip (fun _ => rfl) (.skip (fun _ => rfl) hclosing.hasPrivates)
  | block name hentries hclosing => exact absurd rfl hplain

theorem IsStatement.hasPrivates_block {kinds : List TokenKind} {tree : Node}
    (h : IsStatement kinds tree) (hblock : tree.kind = .binding) :
    ∃ fields, fieldsOf tree.children = .ok fields ∧ HasPrivates kinds fields := by
  cases h with
  | webIdlFile reference => exact absurd hblock (by simp)
  | headerComment _ _ => exact absurd hblock (by simp)
  | preamble code _ => exact absurd hblock (by simp)
  | block name hentries hclosing =>
    obtain ⟨fields, htrees, hkinds⟩ := hasPrivates_entries hentries
    refine ⟨fields, htrees, .skip (fun _ => rfl) (.skip (fun _ => rfl) (.skip (fun _ => rfl) ?_))⟩
    rw [← List.append_nil fields]
    exact hkinds.append (.skip (fun _ => rfl) hclosing.hasPrivates)

/-! ## Whole descriptions -/

theorem hasPrivates_statements {kinds : List TokenKind} {trees : List Node}
    (h : IsSequence IsStatement kinds trees) (hplain : ∀ tree ∈ trees, tree.kind ≠ .binding) :
    HasPrivates kinds [] := by
  induction h with
  | nil => exact .nil
  | cons hfirst _ ih =>
    obtain ⟨htree, htrees⟩ := List.forall_mem_cons.1 hplain
    exact (hfirst.hasPrivates htree).append (ih htrees)

/-- The private entries of a description are those of its block. -/
theorem IsDescription.fieldsOf_block {kinds : List TokenKind} {trees : List Node}
    (h : IsDescription kinds trees) {block : Node}
    (hblock : Node.findKind? .binding trees = some block) :
    fieldsOf block.children = .ok (privateEntries kinds) := by
  obtain ⟨statements, rfl, hsequence, hcount⟩ := h
  rw [Node.findKind?, Node.find?, Node.findFrom_head_eq_find?,
    List.find?_eq_some_iff_append] at hblock
  obtain ⟨hkind, before, behind, rfl, hbefore⟩ := hblock
  have hkind : block.kind = .binding := of_decide_eq_true hkind
  obtain ⟨front, more, rfl, hfront, hmore⟩ := hsequence.exists_append
  cases hmore with
  | cons hfirst hrest =>
    have hfront' := hasPrivates_statements hfront fun tree htree => by
      simpa using hbefore tree htree
    -- the block that is found is the only one
    have hnone : behind.countP (·.kind = .binding) = 0 := by
      rw [List.countP_append, List.countP_cons_of_pos (by simp [hkind])] at hcount
      omega
    have hrest' := hasPrivates_statements hrest fun tree htree => by
      simpa using List.countP_eq_zero.1 hnone tree htree
    obtain ⟨fields, hfields, hkinds⟩ := hfirst.hasPrivates_block hkind
    have hall := (hfront'.append (hkinds.append hrest')) [.eof]
    rw [hfields, hall, List.nil_append, List.append_nil]
    exact congrArg Except.ok (List.append_nil fields).symm

end IdlBind.Binding

namespace IdlBind

/-- The private fields of a descriptor are the private entries of the description, in order. Their
    names are identifiers. -/
theorem privateFields_eq {source : String} {statements definitions : List Node} {d : Descriptor}
    (hparse : Binding.parse source = .ok statements)
    (hd : Descriptor.ofTrees statements definitions = .ok d) :
    ∃ tokens, tokenize source = .ok tokens ∧
      let fields := Binding.privateEntries (tokens.map (·.kind))
      d.privateFields = .ok fields ∧ ∀ f ∈ fields, isIdentifier f.name = true := by
  obtain ⟨tokens, htokens, hdescription⟩ := Binding.parse_eq_ok_iff.1 hparse
  obtain ⟨hblock, -⟩ := block_of_ofTrees hd
  refine ⟨tokens, htokens, hdescription.fieldsOf_block hblock, fun f hf => ?_⟩
  obtain ⟨t, ht, hkind⟩ := List.mem_map.1 (Binding.ident_mem_of_mem_privateEntries hf)
  exact Lexer.isLexical_of_mem_tokens htokens t ht f.name hkind

end IdlBind
