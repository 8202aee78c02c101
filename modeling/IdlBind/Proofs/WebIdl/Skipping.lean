import IdlBind.Proofs.Parsing.Brackets
import IdlBind.Proofs.Parsing.Printed
import IdlBind.Proofs.WebIdl.Local

set_option autoImplicit false

/-! # Extended attributes are skipped

One group after the other is skipped, up to the first token that is no opening square bracket. What
stands behind a group is read as if the group were not there (`skipAttributes_of_group`). -/

namespace IdlBind.WebIdl

open TokenParser

theorem attributeGroup_apply (ts : List Token) :
    attributeGroup ts = if ts.head?.any (·.isPunct '[') then
      (skipGroup '[' ']' >>= fun _ => pure (some ())) ts else .ok (none, ts) := by
  show (if ts.head?.any (·.isPunct '[') then _ else _ : TokenParser (Option Unit)) ts = _
  split <;> rfl

theorem attributeGroup_group {group : List Token} (h : IsGroup '[' ']' group) (rest : List Token) :
    attributeGroup (group ++ rest) = .ok (some (), rest) := by
  have hopening : (group ++ rest).head?.any (·.isPunct '[') = true := by
    obtain ⟨hfirst, -, -⟩ := h
    exact hfirst
  rw [attributeGroup_apply, if_pos hopening,
    Parser.bind_apply_of_ok (skipGroup_group (by decide) h rest)]
  rfl

theorem attributeGroup_settled : Parser.Settled attributeGroup := by
  have hgroup : ∀ {N M}, Local id N M 1 0 (skipGroup '[' ']' >>= fun _ => pure (some ()))
      (skipGroup '[' ']' >>= fun _ => pure (some ())) :=
    (skipGroup_local '[' ']').bind (by omega) fun _ => Local.pure _
  constructor
  intro ts rest a h
  rw [attributeGroup_apply] at h
  split at h
  · rename_i hopening
    obtain ⟨front, rfl, hpos, hmore⟩ := Local.replace hgroup h
    refine ⟨front, rfl, hpos, fun rest' => ?_⟩
    cases front with
    | nil => exact absurd hpos (by simp)
    | cons t front =>
      rw [attributeGroup_apply, if_pos (by exact hopening)]
      exact hmore rest' (.zero _ _)
  · exact absurd h (by simp)

theorem attributeGroup_none {ts rest : List Token} (h : attributeGroup ts = .ok (none, rest)) :
    rest = ts := by
  rw [attributeGroup_apply] at h
  split at h
  · obtain ⟨_, mid, -, h⟩ := Parser.bind_eq_ok_iff.1 h
    exact absurd h (by simp)
  · exact (Prod.mk.inj (Except.ok.inj h)).2.symm

theorem skipAttributes_eq (ts : List Token) :
    skipAttributes ts = (Parser.collect attributeGroup ts).2.map fun rest => ((), rest) := by
  unfold skipAttributes
  rw [Parser.bind_apply]
  unfold Parser.many
  rcases Parser.collect attributeGroup ts with ⟨found, e | rest⟩ <;> rfl

theorem skipAttributes_of_group {ts us : List Token} (h : attributeGroup ts = .ok (some (), us)) :
    skipAttributes ts = skipAttributes us := by
  rw [skipAttributes_eq, skipAttributes_eq, attributeGroup_settled.collect_cons h]

/-- Extended attributes up to the end belong to what follows. -/
theorem skipAttributes_append {ts : List Token} (h : skipAttributes ts = .ok ((), []))
    (us : List Token) : skipAttributes (ts ++ us) = skipAttributes us := by
  rw [skipAttributes_eq] at h ⊢
  rw [skipAttributes_eq]
  rcases hcollect : Parser.collect attributeGroup ts with ⟨found, e | rest⟩
  · rw [hcollect] at h
    exact absurd h (by simp [Except.map])
  · rw [hcollect] at h
    obtain rfl : rest = [] := (Prod.mk.inj (Except.ok.inj h)).2
    have hnone : ∀ {ts}, attributeGroup ts = .ok (none, []) →
        attributeGroup (ts ++ us) = attributeGroup us := by
      intro ts hnone
      rw [← attributeGroup_none hnone, List.nil_append]
    rw [attributeGroup_settled.collect_append hnone hcollect]

theorem skipAttributes_of_avoids {ts : List Token} (h : Avoids (.punct '[') ts) :
    skipAttributes ts = .ok ((), ts) := by
  have hgroup : attributeGroup ts = .ok (none, ts) := by
    unfold attributeGroup
    rw [Parser.bind_apply_of_ok (checkPunct_of_avoids h)]
    rfl
  unfold skipAttributes
  rw [Parser.bind_apply_of_ok (Parser.many_eq_nil hgroup)]
  rfl

end IdlBind.WebIdl
