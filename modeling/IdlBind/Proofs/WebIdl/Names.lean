import IdlBind.Proofs.WebIdl.Merging

set_option autoImplicit false

/-! # Names in documents

The names of definitions and of their members are identifiers, and a dictionary has attributes only,
in every document of sources (`isRead_of_mem_ofSources`). -/

namespace IdlBind.WebIdl

/-- What holds of a member that was read in a definition of a kind. -/
def Member.IsRead (kind : DefinitionKind) : Member → Prop
  | .attribute _ _ name => isIdentifier name = true
  | .operation _ _ name? _ => kind = .interface ∧ ∀ name ∈ name?, isIdentifier name = true
  | .stringifier => kind = .interface

/-- What holds of a definition that was read. -/
structure Definition.IsRead (d : Definition) : Prop where
  name : isIdentifier d.name = true
  member : ∀ block ∈ d.blocks, ∀ m ∈ block, m.IsRead d.kind

/-- All members of a dictionary are plain. -/
theorem Member.IsSound.kind_eq {valid : String → Bool} {kind : DefinitionKind} {m : Member}
    (h : m.IsSound valid kind)
    (hplain : m.isPlain = false) : kind = .interface := by
  cases kind with
  | interface => rfl
  | dictionary => exact absurd (h.plain rfl) (by simp [hplain])

theorem Member.IsLexical.isRead {kind : DefinitionKind} {m : Member} (h : m.IsLexical kind) :
    m.IsRead kind := by
  rcases m with ⟨modifiers, type, name⟩ | ⟨modifiers, type, name?, arguments⟩ | _
  · exact h.names name (by simp [Member.names])
  · refine ⟨h.kind_eq rfl, fun name hname => h.names name ?_⟩
    simp [Member.names, Option.mem_def.1 hname]
  · exact h.kind_eq rfl

/-- What was read stays as it was read when sources are merged. -/
theorem isRead_of_mem_ofSources (sources : List String) :
    ∀ d ∈ (Document.ofSources sources).definitions, d.IsRead := by
  intro d hd
  have hsound := isSound_of_mem_ofSources sources d hd
  refine ⟨hsound.name, fun block hblock m hm => ?_⟩
  exact Member.IsLexical.isRead (hsound.member block hblock m hm)

end IdlBind.WebIdl
