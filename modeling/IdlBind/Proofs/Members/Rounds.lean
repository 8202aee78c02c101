import IdlBind.Proofs.Members.Resolution
import Mathlib.Data.List.Dedup

set_option autoImplicit false

/-! # Resolving in rounds

Resolving a name as a loop that knows nothing of its end: a round takes one definition, adds what it
declares, and goes on to its parent (`Climb.round`). No tree makes the loop run for ever. A round
that goes on has met a name for the first time, and this is the name of a definition of the kind
that is climbed, since a definition that is found by a name has that name (`remaining_lt`). So there
is one round more at most than there are such names, and then the loop has come to what `resolve`
gives (`resolveWithin_eq_resolve`). The trees need not have any particular shape. -/

namespace IdlBind

open WebIdl (DefinitionKind)

/-! ## Rounds -/

/-- How far a climb has come: the names it has met, the blocks it has collected, and the definition
    that comes next. -/
structure Climb where
  chain : List String
  blocks : List MemberBlock
  current : Node

/-- One round of a climb: it goes on at the parent, or has come to a result. A definition without a
    name counts as one with the empty name. -/
def Climb.round (definitions : List Node) (kind : DefinitionKind) (c : Climb) :
    Climb ⊕ Except ResolveError Members :=
  let name := (c.current.childText? .ident).getD ""
  if name ∈ c.chain then .inr (.error (.cyclicInheritance (c.chain ++ [name])))
  else
    match resolveBlocks name c.current with
    | .error e => .inr (.error e)
    | .ok blocks =>
      match (c.current.child? .interfaceInheritance).map Node.getText with
      | none => .inr (.ok ⟨kind, c.chain ++ [name], c.blocks ++ blocks⟩)
      | some (.error cause) => .inr (.error (.tree cause))
      | some (.ok parent) =>
        match findDefinition? kind parent definitions with
        | none => .inr (.error (.interfaceNotFound parent))
        | some next => .inl ⟨c.chain ++ [name], c.blocks ++ blocks, next⟩

/-- The result of a climb if it has one within so many rounds. -/
def Climb.result? (definitions : List Node) (kind : DefinitionKind) :
    Nat → Climb → Option (Except ResolveError Members)
  | 0, _ => none
  | rounds + 1, c =>
    match c.round definitions kind with
    | .inl next => next.result? definitions kind rounds
    | .inr result => some result

/-- The result of resolving a name if there is one within so many rounds. There is a climb only if
    the name means something: an interface, or else a dictionary. -/
def resolveWithin (definitions : List Node) (name : String) (rounds : Nat) :
    Option (Except ResolveError Members) :=
  match findDefinition? .interface name definitions with
  | some d => Climb.result? definitions .interface rounds ⟨[], [], d⟩
  | none =>
    match findDefinition? .dictionary name definitions with
    | some d => Climb.result? definitions .dictionary rounds ⟨[], [], d⟩
    | none => some (.error (.interfaceNotFound name))

/-! ## Names that can still be met -/

/-- The names of the definitions of a kind, each once. -/
def kindNames (definitions : List Node) (kind : DefinitionKind) : List String :=
  ((Node.eachKind kind.nodeKind definitions).filterMap (·.childText? .ident)).dedup

/-- How many of these names a climb has not met. -/
def remaining (definitions : List Node) (kind : DefinitionKind) (met : List String) : Nat :=
  (kindNames definitions kind).countP fun name => !met.contains name

variable {definitions : List Node} {kind : DefinitionKind}

theorem remaining_nil :
    remaining definitions kind [] = (kindNames definitions kind).length := by
  simp [remaining]

/-- A definition that is found by a name has that name. -/
theorem mem_kindNames {name : String} {d : Node}
    (h : findDefinition? kind name definitions = some d) : name ∈ kindNames definitions kind := by
  obtain ⟨hmem, hkind, hname⟩ := findDefinition?_some h
  exact List.mem_dedup.2 (List.mem_filterMap.2
    ⟨d, List.mem_filter.2 ⟨hmem, decide_eq_true hkind⟩, hname⟩)

/-- A name that is met for the first time is one less to be met. -/
theorem remaining_lt {name : String} {d : Node} {met : List String}
    (h : findDefinition? kind name definitions = some d) (hnew : name ∉ met) :
    remaining definitions kind (met ++ [name]) < remaining definitions kind met := by
  refine countP_lt_of_mem (fun x hx => ?_) (mem_kindNames h) (by simpa using hnew) (by simp)
  simp only [Bool.not_eq_true', List.contains_eq_mem, decide_eq_false_iff_not, List.mem_append,
    not_or] at hx ⊢
  exact hx.1

/-! ## A climb follows the ancestry -/

/-- What a climb comes to that has met some names and collected some blocks. -/
def outcome (kind : DefinitionKind) (met : List String) (blocks : List MemberBlock)
    (ancestors : Ancestry) : Except ResolveError Members := do
  let more ← resolvePath ancestors.path
  ancestors.ending
  pure ⟨kind, met ++ ancestors.path.map (·.1), blocks ++ more⟩

theorem outcome_cons (met : List String) (blocks : List MemberBlock) (name : String) (d : Node)
    (rest : Ancestry) :
    outcome kind met blocks ⟨(name, d) :: rest.path, rest.ending⟩
      = match resolveBlocks name d with
        | .error e => .error e
        | .ok found => outcome kind (met ++ [name]) (blocks ++ found) rest := by
  have hmet : met ++ name :: rest.path.map (·.1) = met ++ [name] ++ rest.path.map (·.1) :=
    List.append_cons ..
  simp only [outcome, resolvePath, List.map_cons, hmet, List.append_assoc blocks]
  cases resolveBlocks name d with
  | error e => rfl
  | ok found =>
    cases resolvePath rest.path with
    | error e => rfl
    | ok more => rfl

/-- A climb comes to its result within one round more than there are names to be met. -/
theorem result?_eq (met : List String) (name : String) :
    ∀ (d : Node) (blocks : List MemberBlock) (rounds : Nat),
      findDefinition? kind name definitions = some d → remaining definitions kind met < rounds →
      Climb.result? definitions kind rounds ⟨met, blocks, d⟩
        = some (outcome kind met blocks (ancestryFrom definitions kind met name)) := by
  have hname : ∀ {name : String} {d : Node}, findDefinition? kind name definitions = some d →
      (d.childText? .ident).getD "" = name := by
    intro name d h
    rw [(findDefinition?_some h).2.2]
    rfl
  -- the names still to be met bound the rounds that are left, in every step of the search
  fun_induction ancestryFrom definitions kind met name with
  | case1 met name hnone =>
    intro d blocks rounds hd
    exact absurd (hnone.symm.trans hd) (by simp)
  | case2 met name node hfound hmet =>
    intro d blocks rounds hd hrounds
    obtain ⟨left, rfl⟩ : ∃ left, rounds = left + 1 := ⟨rounds - 1, by omega⟩
    simp only [Climb.result?, Climb.round, hname hd, if_pos hmet]
    rfl
  | case3 met name node hfound hnew rest ih =>
    intro d blocks rounds hd hrounds
    obtain ⟨left, rfl⟩ : ∃ left, rounds = left + 1 := ⟨rounds - 1, by omega⟩
    obtain rfl : node = d := Option.some.inj (hfound.symm.trans hd)
    rw [outcome_cons]
    simp only [Climb.result?, Climb.round, hname hd, if_neg hnew]
    cases resolveBlocks name node with
    | error e => rfl
    | ok found =>
      cases hparent : (node.child? .interfaceInheritance).map Node.getText with
      | none =>
        have hrest : rest = ⟨[], .ok ()⟩ := by simp only [rest, hparent]
        simp [hrest, outcome, resolvePath, pure, bind, Except.pure, Except.bind]
      | some clause =>
        cases clause with
        | error cause =>
          have hrest : rest = ⟨[], .error (.tree cause)⟩ := by simp only [rest, hparent]
          rw [hrest]
          rfl
        | ok parent =>
          have hrest : rest = ancestryFrom definitions kind (met ++ [name]) parent := by
            simp only [rest, hparent]
          rw [hrest]
          cases hnext : findDefinition? kind parent definitions with
          | none => simp only [ancestryFrom_of_none hnext, hnext, outcome, resolvePath]; rfl
          | some next =>
            have hless := remaining_lt hfound hnew
            simpa only [hnext] using ih parent next (blocks ++ found) left hnext (by omega)

/-- Resolving a name takes at most one round more than there are names of definitions of the kind
    that the name resolves to; then it has come to its result, be that members or an error. -/
theorem resolveWithin_eq_resolve (definitions : List Node) (name : String) (more : Nat) :
    resolveWithin definitions name
        ((kindNames definitions (pathKind definitions name)).length + 1 + more)
      = some (resolve definitions name) := by
  have hclimb : ∀ {kind : DefinitionKind} {d : Node},
      findDefinition? kind name definitions = some d → definitionKind? definitions name = some kind →
      Climb.result? definitions kind ((kindNames definitions kind).length + 1 + more) ⟨[], [], d⟩
        = some (resolve definitions name) := by
    intro kind d hd hkind
    have hless : remaining definitions kind [] < (kindNames definitions kind).length + 1 + more := by
      rw [remaining_nil]
      omega
    rw [result?_eq [] name d [] _ hd hless, resolve, hkind]
    rfl
  rw [resolveWithin]
  cases hi : findDefinition? .interface name definitions with
  | some d =>
    have hpath : pathKind definitions name = .interface := by
      simp [pathKind, ← findDefinition?_eq_meaning?, hi]
    rw [hpath]
    exact hclimb hi (by simp [definitionKind?, hi])
  | none =>
    have hpath : pathKind definitions name = .dictionary := by
      simp [pathKind, ← findDefinition?_eq_meaning?, hi]
    rw [hpath]
    cases hd : findDefinition? .dictionary name definitions with
    | some d => exact hclimb hd (by simp [definitionKind?, hi, hd])
    | none => simp [resolve, definitionKind?, hi, hd]

end IdlBind
