import IdlBind.WebIdl.Loading
import Mathlib.Data.List.Forall2

set_option autoImplicit false

/-! # Documents of several sources

A source contributes to a document the definitions that are read from it, whatever the document
holds already (`addSource_eq`). Loading therefore comes to merging the sources of all references in
order, and fails only where a reference cannot be read or its source not be parsed
(`loadInto_eq_ok_iff`, `error_of_loadInto`). -/

namespace IdlBind.WebIdl

/-! ## What one source contributes -/

/-- The definitions of a source up to its first error, and that error. -/
def readSource (source : String) : List Definition × Except ParseError Unit :=
  match TokenStream.ofString source with
  | .error e => ([], .error e)
  | .ok stream => definitions stream.ahead

/-- The document with some definitions merged into it, one after the other. -/
def Document.insertAll (doc : Document) (found : List Definition) : Document :=
  found.foldl Document.insert doc

/-- The document of some sources. -/
def Document.ofSources (sources : List String) : Document :=
  sources.foldl (fun doc source => (doc.addSource source).1) .empty

@[simp] theorem Document.insertAll_nil (doc : Document) : doc.insertAll [] = doc := rfl

theorem Document.insertAll_append (doc : Document) (a b : List Definition) :
    doc.insertAll (a ++ b) = (doc.insertAll a).insertAll b := by
  simp [insertAll]

theorem addSource_eq (doc : Document) (source : String) :
    doc.addSource source = (doc.insertAll (readSource source).1, (readSource source).2) := by
  unfold Document.addSource readSource
  cases TokenStream.ofString source <;> rfl

/-- Whether a source can be parsed does not depend on the document. -/
theorem parse_isOk_iff (source : String) :
    (∃ nodes, parse source = .ok nodes) ↔ (readSource source).2 = .ok () := by
  unfold parse
  rw [addSource_eq]
  cases (readSource source).2 <;> simp

/-! ## What several sources come to -/

variable (read : Reader Id)

theorem loadInto_cons (doc : Document) (reference : String) (rest : List Node) :
    loadInto read doc (.text .webIdlFile reference :: rest)
      = match read reference with
        | .error e => .error e
        | .ok source =>
          match (readSource source).2 with
          | .ok () => loadInto read (doc.addSource source).1 rest
          | .error cause => .error (.parse reference cause) := by
  simp only [loadInto, Node.getText, bind, pure, addSource_eq]
  cases read reference with
  | error e => rfl
  | ok source =>
    dsimp only
    cases (readSource source).2 <;> rfl

/-- The definitions that a reference contributes. -/
def readReference (node : Node) : Except LoadError (List Definition) :=
  match node.getText with
  | .error cause => .error (.tree cause)
  | .ok reference =>
    match read reference with
    | .error e => .error e
    | .ok source =>
      match (readSource source).2 with
      | .ok () => .ok (readSource source).1
      | .error cause => .error (.parse reference cause)

/-- Loading comes to merging what the references contribute, one after the other. -/
theorem loadInto_eq_mapM (doc : Document) (nodes : List Node) :
    loadInto read doc nodes
      = (nodes.mapM (readReference read)).map fun found => doc.insertAll found.flatten := by
  induction nodes generalizing doc with
  | nil => rfl
  | cons node rest ih =>
    rw [List.mapM_cons, readReference]
    simp only [loadInto, bind, pure, addSource_eq]
    cases node.getText with
    | error cause => rfl
    | ok reference =>
      dsimp only
      cases read reference with
      | error e => rfl
      | ok source =>
        dsimp only
        cases (readSource source).2 with
        | error cause => rfl
        | ok _ =>
          dsimp only
          rw [ih]
          cases rest.mapM (readReference read) with
          | error e => rfl
          | ok found =>
            exact congrArg Except.ok (Document.insertAll_append doc _ found.flatten).symm

/-- Loading succeeds if every reference can be read and its source be parsed. The document is then
    that of all sources in order. -/
theorem loadInto_eq_ok_iff (references : List String) (doc doc' : Document) :
    loadInto read doc (references.map (Node.text .webIdlFile)) = .ok doc' ↔
      ∃ sources, List.Forall₂ (fun reference source => read reference = .ok source ∧
          ∃ nodes, parse source = .ok nodes) references sources ∧
        doc' = sources.foldl (fun doc source => (doc.addSource source).1) doc := by
  induction references generalizing doc with
  | nil =>
    constructor
    · intro h
      exact ⟨[], .nil, (Except.ok.inj h).symm⟩
    · rintro ⟨sources, hsources, rfl⟩
      cases hsources
      rfl
  | cons reference rest ih =>
    rw [List.map_cons, loadInto_cons]
    constructor
    · intro h
      split at h
      · exact absurd h (by simp)
      · rename_i source hread
        split at h
        · rename_i hparse
          obtain ⟨sources, hsources, rfl⟩ := (ih _).1 h
          exact ⟨source :: sources, .cons ⟨hread, (parse_isOk_iff source).2 hparse⟩ hsources, rfl⟩
        · exact absurd h (by simp)
    · rintro ⟨sources, hsources, rfl⟩
      cases hsources with
      | cons hhead hrest =>
        obtain ⟨hread, hparse⟩ := hhead
        rw [hread]
        simp only [(parse_isOk_iff _).1 hparse]
        exact (ih _).2 ⟨_, hrest, rfl⟩

/-- Loading fails at the first reference that cannot be read or whose source cannot be parsed. -/
theorem loadInto_eq_error_iff (references : List String) (doc : Document) (e : LoadError) :
    loadInto read doc (references.map (Node.text .webIdlFile)) = .error e ↔
      ∃ before reference after, references = before ++ reference :: after ∧
        (∀ earlier ∈ before, ∃ source nodes, read earlier = .ok source ∧
          parse source = .ok nodes) ∧
        (read reference = .error e ∨ ∃ source cause, read reference = .ok source ∧
          (readSource source).2 = .error cause ∧ e = .parse reference cause) := by
  induction references generalizing doc with
  | nil => simp [loadInto, pure]
  | cons first rest ih =>
    rw [List.map_cons, loadInto_cons]
    constructor
    · intro h
      split at h
      · rename_i e' hread
        obtain rfl := Except.error.inj h
        exact ⟨[], first, rest, rfl, by simp, Or.inl hread⟩
      · rename_i source hread
        split at h
        · rename_i hparse
          obtain ⟨before, reference, after, rfl, hbefore, hfails⟩ := (ih _).1 h
          obtain ⟨nodes, hnodes⟩ := (parse_isOk_iff source).2 hparse
          exact ⟨first :: before, reference, after, rfl,
            List.forall_mem_cons.2 ⟨⟨source, nodes, hread, hnodes⟩, hbefore⟩, hfails⟩
        · rename_i cause hparse
          obtain rfl := Except.error.inj h
          exact ⟨[], first, rest, rfl, by simp, Or.inr ⟨source, cause, hread, hparse, rfl⟩⟩
    · rintro ⟨before, reference, after, hsplit, hbefore, hfails⟩
      cases before with
      | nil =>
        obtain ⟨rfl, rfl⟩ := List.cons.inj hsplit
        rcases hfails with hread | ⟨source, cause, hread, hparse, rfl⟩
        · rw [hread]
        · rw [hread]
          simp only [hparse]
      | cons earlier before =>
        obtain ⟨rfl, rfl⟩ := List.cons.inj hsplit
        obtain ⟨⟨source, nodes, hread, hnodes⟩, hbefore⟩ := List.forall_mem_cons.1 hbefore
        rw [hread]
        simp only [(parse_isOk_iff source).1 ⟨nodes, hnodes⟩]
        exact (ih _).2 ⟨before, reference, after, rfl, hbefore, hfails⟩

/-- Loading fails where a reference cannot be read or its source not be parsed. -/
theorem error_of_loadInto {references : List String} {doc : Document} {e : LoadError}
    (he : loadInto read doc (references.map (Node.text .webIdlFile)) = .error e) :
    (∃ reference, read reference = .error e) ∨ ∃ reference cause, e = .parse reference cause := by
  obtain ⟨-, reference, -, -, -, hread | ⟨-, cause, -, -, hparse⟩⟩ :=
    (loadInto_eq_error_iff read references doc e).1 he
  · exact Or.inl ⟨reference, hread⟩
  · exact Or.inr ⟨reference, cause, hparse⟩

end IdlBind.WebIdl
