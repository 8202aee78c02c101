import IdlBind.Members.Ancestry
import IdlBind.Proofs.WebIdl.Shape
import Mathlib.Data.List.Nodup

set_option autoImplicit false

/-! # Paths of inheritance

What a name means, which definition extends which, and the path that starts at a name, as a graph
over arbitrary definitions: `Walk` follows parents, `IsPath` is a walk over distinct names that
cannot go on. There is one path from each name (`IsPath.unique`).

`ancestry_isPath` ties the search to the graph: what it finds is the path and how the path ends. -/

namespace IdlBind

open WebIdl (DefinitionKind IsDefinition)

/-! ## The graph -/

/-- The definition that a name means: the first of its kind with the name. -/
def meaning? (definitions : List Node) (kind : DefinitionKind) (name : String) : Option Node :=
  definitions.find? (Node.isNamed kind.nodeKind name)

/-- The definition that `name` means has the parent `parent`. -/
def Extends (definitions : List Node) (kind : DefinitionKind) (name parent : String) : Prop :=
  ∃ d, meaning? definitions kind name = some d ∧ d.childText? .interfaceInheritance = some parent

/-- From `name` to `last` by parents, over the names in between: `name` is the first of them unless
    it is `last`. -/
inductive Walk (definitions : List Node) (kind : DefinitionKind) :
    String → List String → String → Prop
  | stay (name : String) : Walk definitions kind name [] name
  | step {name parent last : String} {names : List String}
      (h : Extends definitions kind name parent) (rest : Walk definitions kind parent names last) :
      Walk definitions kind name (name :: names) last

/-- A walk over distinct names that ends because the last name was met before or has no parent. -/
structure IsPath (definitions : List Node) (kind : DefinitionKind) (name : String)
    (names : List String) (last : String) : Prop where
  walk : Walk definitions kind name names last
  nodup : names.Nodup
  ends : last ∈ names ∨ ∀ parent, ¬ Extends definitions kind last parent

variable {definitions : List Node} {kind : DefinitionKind}

theorem findDefinition?_eq_meaning? (name : String) :
    findDefinition? kind name definitions = meaning? definitions kind name :=
  Node.findFrom_head_eq_find? _ _

/-- A definition has one parent at most. -/
theorem Extends.unique {name a b : String} (ha : Extends definitions kind name a)
    (hb : Extends definitions kind name b) : a = b := by
  obtain ⟨d, hd, hda⟩ := ha
  obtain ⟨e, he, heb⟩ := hb
  rw [hd] at he
  obtain rfl := Option.some.inj he
  exact Option.some.inj (hda.symm.trans heb)

/-- Every name between the ends of a walk has a parent. -/
theorem Walk.extends_of_mem {name last n : String} {names : List String}
    (h : Walk definitions kind name names last) (hn : n ∈ names) :
    ∃ parent, Extends definitions kind n parent := by
  induction h with
  | stay => simp at hn
  | step hstep _ ih =>
    rcases List.mem_cons.1 hn with rfl | hn
    · exact ⟨_, hstep⟩
    · exact ih hn

/-- Of two walks from one name, the longer goes on from where the shorter ends. -/
theorem Walk.continues {name last last' : String} {names names' : List String}
    (h : Walk definitions kind name names last) (h' : Walk definitions kind name names' last')
    (hle : names.length ≤ names'.length) :
    ∃ more, names' = names ++ more ∧ Walk definitions kind last more last' := by
  induction h generalizing names' with
  | stay => exact ⟨names', rfl, h'⟩
  | step hstep _ ih =>
    cases h' with
    | stay => simp at hle
    | step hstep' hrest' =>
      obtain rfl := hstep.unique hstep'
      obtain ⟨more, rfl, hmore⟩ := ih hrest' (by simpa using hle)
      exact ⟨more, rfl, hmore⟩

/-- A walk over distinct names does not go beyond the end of a path. -/
theorem IsPath.eq_nil_of_continues {name last last' : String} {names more : List String}
    (h : IsPath definitions kind name names last) (hmore : Walk definitions kind last more last')
    (hnodup : (names ++ more).Nodup) : more = [] := by
  cases hmore with
  | stay => rfl
  | step hstep _ =>
    rcases h.ends with hmem | hstop
    · exact absurd rfl ((List.nodup_append.1 hnodup).2.2 last hmem last (List.mem_cons_self ..))
    · exact absurd hstep (hstop _)

/-- There is one path from a name. -/
theorem IsPath.unique {name last last' : String} {names names' : List String}
    (h : IsPath definitions kind name names last)
    (h' : IsPath definitions kind name names' last') : names = names' ∧ last = last' := by
  rcases Nat.le_total names.length names'.length with hle | hle
  · obtain ⟨more, rfl, hmore⟩ := h.walk.continues h'.walk hle
    obtain rfl := h.eq_nil_of_continues hmore h'.nodup
    cases hmore
    exact ⟨(List.append_nil _).symm, rfl⟩
  · obtain ⟨more, rfl, hmore⟩ := h'.walk.continues h.walk hle
    obtain rfl := h'.eq_nil_of_continues hmore h.nodup
    cases hmore
    exact ⟨List.append_nil _, rfl⟩

/-! ## The search follows the path -/

/-- The name means a definition without a parent. -/
def IsRoot (definitions : List Node) (kind : DefinitionKind) (name : String) : Prop :=
  ∃ d, meaning? definitions kind name = some d ∧ d.childText? .interfaceInheritance = none

/-- How a search ends that has come to `last` over `names`: the names of the definitions that it has
    found, and what it reports. -/
inductive Ending (definitions : List Node) (kind : DefinitionKind) (names : List String)
    (last : String) : List String → Except ResolveError Unit → Prop
  | root (hroot : IsRoot definitions kind last) (hnew : last ∉ names) :
      Ending definitions kind names last (names ++ [last]) (.ok ())
  | undefined (hnone : meaning? definitions kind last = none) :
      Ending definitions kind names last names (.error (.interfaceNotFound last))
  | repeated (hmem : last ∈ names) :
      Ending definitions kind names last names (.error (.cyclicInheritance (names ++ [last])))

theorem IsRoot.not_extends {name : String} (h : IsRoot definitions kind name) (parent : String) :
    ¬ Extends definitions kind name parent := by
  obtain ⟨d, hd, hroot⟩ := h
  rintro ⟨e, he, hparent⟩
  rw [hd] at he
  obtain rfl := Option.some.inj he
  rw [hroot] at hparent
  exact absurd hparent (by simp)

/-- Where a search ends no walk over distinct names goes on. -/
theorem Ending.ends {names chain : List String} {last : String} {outcome : Except ResolveError Unit}
    (h : Ending definitions kind names last chain outcome) :
    last ∈ names ∨ ∀ parent, ¬ Extends definitions kind last parent := by
  cases h with
  | root hroot _ => exact Or.inr hroot.not_extends
  | undefined hnone =>
    refine Or.inr fun parent hextends => ?_
    obtain ⟨d, hd, -⟩ := hextends
    rw [hnone] at hd
    exact absurd hd (by simp)
  | repeated hmem => exact Or.inl hmem

theorem IsRoot.ne_none {name : String} (h : IsRoot definitions kind name) :
    meaning? definitions kind name ≠ none := by
  obtain ⟨d, hd, -⟩ := h
  simp [hd]

theorem Extends.ne_none {name parent : String} (h : Extends definitions kind name parent) :
    meaning? definitions kind name ≠ none := by
  obtain ⟨d, hd, -⟩ := h
  simp [hd]

/-- Where a walk stands decides how a search ends there. -/
theorem Ending.unique {name last : String} {names chain chain' : List String}
    {outcome outcome' : Except ResolveError Unit}
    (h : Ending definitions kind names last chain outcome)
    (hwalk : Walk definitions kind name names last)
    (h' : Ending definitions kind names last chain' outcome') :
    chain = chain' ∧ outcome = outcome' := by
  have hdefined (hmem : last ∈ names) : meaning? definitions kind last ≠ none := by
    obtain ⟨parent, hparent⟩ := hwalk.extends_of_mem hmem
    exact hparent.ne_none
  cases h with
  | root hroot hnew =>
    cases h' with
    | root => exact ⟨rfl, rfl⟩
    | undefined hnone => exact absurd hnone hroot.ne_none
    | repeated hmem => exact absurd hmem hnew
  | undefined hnone =>
    cases h' with
    | root hroot => exact absurd hnone hroot.ne_none
    | undefined => exact ⟨rfl, rfl⟩
    | repeated hmem => exact absurd hnone (hdefined hmem)
  | repeated hmem =>
    cases h' with
    | root _ hnew => exact absurd hmem hnew
    | undefined hnone => exact absurd hnone (hdefined hmem)
    | repeated => exact ⟨rfl, rfl⟩

theorem ancestryFrom_of_none {visited : List String} {name : String}
    (h : findDefinition? kind name definitions = none) :
    ancestryFrom definitions kind visited name = ⟨[], .error (.interfaceNotFound name)⟩ := by
  unfold ancestryFrom
  split
  · rfl
  · rename_i hfound
    exact absurd (h.symm.trans hfound) (by simp)

theorem ancestryFrom_of_found {visited : List String} {name : String} {node : Node}
    (hfound : findDefinition? kind name definitions = some node) (hnew : name ∉ visited) :
    ancestryFrom definitions kind visited name
      = let rest : Ancestry := match (node.child? .interfaceInheritance).map Node.getText with
          | none => ⟨[], .ok ()⟩
          | some (.error cause) => ⟨[], .error (.tree cause)⟩
          | some (.ok parent) => ancestryFrom definitions kind (visited ++ [name]) parent
        ⟨(name, node) :: rest.path, rest.ending⟩ := by
  rw [ancestryFrom]
  split
  · rename_i hnone
    exact absurd (hnone.symm.trans hfound) (by simp)
  · rename_i found hsome
    obtain rfl := Option.some.inj (hsome.symm.trans hfound)
    exact dif_neg hnew

/-- The search goes on from `visited` along a walk of names that are new. -/
theorem ancestryFrom_ending (shaped : ∀ d ∈ definitions, IsDefinition d) (visited : List String)
    (name : String) (hnodup : visited.Nodup) :
    ∃ names last, Walk definitions kind name names last ∧ (visited ++ names).Nodup ∧
      Ending definitions kind (visited ++ names) last
        (visited ++ (ancestryFrom definitions kind visited name).path.map (·.1))
        (ancestryFrom definitions kind visited name).ending := by
  -- the names visited grow by one with every step of the search and stay distinct
  fun_induction ancestryFrom definitions kind visited name with
  | case1 visited name h =>
    rw [findDefinition?_eq_meaning?] at h
    refine ⟨[], name, .stay name, by simpa using hnodup, ?_⟩
    simpa using Ending.undefined h
  | case2 visited name node h hv =>
    refine ⟨[], name, .stay name, by simpa using hnodup, ?_⟩
    simpa using Ending.repeated hv
  | case3 visited name node h hv rest ih =>
    rw [findDefinition?_eq_meaning?] at h
    have htext := (shaped node (List.mem_of_find?_eq_some h)).getText_inheritance
    have hnodup' : (visited ++ [name]).Nodup :=
      List.nodup_append.2 ⟨hnodup, List.nodup_singleton name, by
        rintro a ha b hb rfl
        exact hv (List.mem_singleton.1 hb ▸ ha)⟩
    cases hparent : node.childText? .interfaceInheritance with
    | none =>
      have hrest : rest = ⟨[], .ok ()⟩ := by
        simp only [rest, htext, hparent, Option.map_none]
      refine ⟨[], name, .stay name, by simpa using hnodup, ?_⟩
      rw [hrest]
      simpa using Ending.root ⟨node, h, hparent⟩ hv
    | some parent =>
      have hrest : rest = ancestryFrom definitions kind (visited ++ [name]) parent := by
        simp only [rest, htext, hparent, Option.map_some]
      obtain ⟨names, last, hwalk, hnames, hending⟩ := ih parent hnodup'
      refine ⟨name :: names, last, .step ⟨node, h, hparent⟩ hwalk, by simpa using hnames, ?_⟩
      rw [hrest]
      simpa using hending

/-- What the search finds is the path from the name, and how that ends. -/
theorem ancestry_isPath (shaped : ∀ d ∈ definitions, IsDefinition d) (name : String) :
    ∃ names last, IsPath definitions kind name names last ∧
      Ending definitions kind names last ((ancestry definitions kind name).path.map (·.1))
        (ancestry definitions kind name).ending := by
  obtain ⟨names, last, hwalk, hnodup, hending⟩ :=
    ancestryFrom_ending shaped [] name List.nodup_nil
  exact ⟨names, last, ⟨hwalk, hnodup, hending.ends⟩, hending⟩

/-- Each definition on the path is what its name means. -/
theorem meaning?_of_mem_path {visited : List String} {name : String} {p : String × Node}
    (hp : p ∈ (ancestryFrom definitions kind visited name).path) :
    meaning? definitions kind p.1 = some p.2 := by
  fun_induction ancestryFrom definitions kind visited name with
  | case1 => simp at hp
  | case2 => simp at hp
  | case3 visited name node h hv rest ih =>
    rcases List.mem_cons.1 hp with rfl | hp
    · rw [← findDefinition?_eq_meaning?]
      exact h
    · simp only [rest] at hp
      split at hp
      · simp at hp
      · simp at hp
      · exact ih _ hp

end IdlBind
