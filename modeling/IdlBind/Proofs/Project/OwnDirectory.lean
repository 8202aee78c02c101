import IdlBind.Proofs.Files.BareNames
import IdlBind.Proofs.Project.SearchOrder

set_option autoImplicit false

/-! # The directory of the binding description

References are searched for beside the binding description, but a description that is named without
a directory part has no such directory. So it makes a difference whether a bare name is written with
`./` in front: the two spellings come to the same unless a reference that no search directory has
names a file beside the description (`load_dotted_eq_iff`). -/

namespace IdlBind

/-! ## One more directory -/

section

variable {view : FileView} {dirs : List String} {own reference : String}

/-- A relative reference that is not found in the search directories, but in one more. -/
structure FileView.Misses (view : FileView) (dirs : List String) (own reference : String) :
    Prop where
  relative : FilePath.isAbsolute reference = false
  absent : ¬∃ path, view.Means dirs reference path
  beside : view.isFile (FilePath.join own reference) = true

theorem means_append_of_means (own : String) {path : String}
    (h : view.Means dirs reference path) :
    view.Means (dirs ++ [own]) reference path := by
  cases h with
  | absolute habsolute hfile => exact .absolute habsolute hfile
  | @relative before after dir hrelative hdirs hbefore hfile =>
    have hmore : dirs ++ [own] = before ++ dir :: (after ++ [own]) := by
      rw [hdirs, List.append_assoc, List.cons_append]
    exact .relative hrelative hmore hbefore hfile

/-- What is missed is found in the further directory. -/
theorem means_append_of_misses (h : view.Misses dirs own reference) :
    view.Means (dirs ++ [own]) reference (FilePath.join own reference) := by
  have hdirs : dirs ++ [own] = dirs ++ own :: [] := rfl
  refine .relative h.relative hdirs ?_ h.beside
  intro earlier hearlier
  by_contra hfile
  have hfound : ((FilePath.candidates dirs reference).find? view.isFile).isSome = true := by
    rw [List.find?_isSome]
    refine ⟨FilePath.join earlier reference, ?_, by simpa using hfile⟩
    rw [FilePath.candidates, h.relative]
    exact List.mem_map_of_mem hearlier
  obtain ⟨path, hpath⟩ := Option.isSome_iff_exists.1 hfound
  exact h.absent ⟨path, (find?_candidates_eq_some_iff ..).1 hpath⟩

/-- A further directory only finds what was missed. -/
theorem misses_of_means_append {path : String} (h : view.Means (dirs ++ [own]) reference path) :
    view.Means dirs reference path ∨ view.Misses dirs own reference := by
  by_cases hmeans : ∃ other, view.Means dirs reference other
  · obtain ⟨other, hother⟩ := hmeans
    have hpath := (find?_candidates_eq_some_iff ..).2 h
    have hsame := (find?_candidates_eq_some_iff ..).2 (means_append_of_means own hother)
    obtain rfl := Option.some.inj (hpath.symm.trans hsame)
    exact Or.inl hother
  · cases h with
    | absolute habsolute hfile => exact absurd ⟨_, .absolute habsolute hfile⟩ hmeans
    | @relative before after dir hrelative hdirs hbefore hfile =>
      rcases List.eq_nil_or_concat after with rfl | ⟨after', last, rfl⟩
      · obtain ⟨rfl, hdir⟩ := List.append_inj' hdirs rfl
        obtain rfl : own = dir := (List.cons.inj hdir).1
        exact Or.inr ⟨hrelative, hmeans, hfile⟩
      · rw [List.concat_eq_append, ← List.cons_append, ← List.append_assoc] at hdirs
        obtain ⟨rfl, -⟩ := List.append_inj' hdirs rfl
        exact absurd ⟨_, .relative hrelative rfl hbefore hfile⟩ hmeans

end

/-! ## What two searches come to -/

/-- A load error up to the paths that were searched. -/
def WebIdl.LoadError.withoutPaths : LoadError → LoadError
  | .notFound reference _ => .notFound reference []
  | e => e

/-- A failure up to the path of the binding description and the paths that were searched. -/
def ProjectError.withoutPaths : ProjectError → ProjectError
  | .readBinding _ cause => .readBinding "" cause
  | .parseBinding _ cause => .parseBinding "" cause
  | .generate (.descriptor (.load cause)) => .generate (.descriptor (.load cause.withoutPaths))
  | e => e

/-- Outcomes that are alike up to `f` are the same success or alike failures. -/
theorem cases_of_mapError_eq {ε ε' α : Type} {x y : Except ε α} {f : ε → ε'}
    (h : x.mapError f = y.mapError f) :
    (∃ a, x = .ok a ∧ y = .ok a) ∨ ∃ e e', x = .error e ∧ y = .error e' ∧ f e = f e' := by
  cases x with
  | error e =>
    cases y with
    | error e' => exact Or.inr ⟨e, e', rfl, rfl, Except.error.inj h⟩
    | ok a => nomatch h
  | ok a =>
    cases y with
    | error e' => nomatch h
    | ok b => exact Or.inl ⟨a, rfl, congrArg Except.ok (Except.ok.inj h).symm⟩

/-- The same descriptor, or the same failure up to paths. -/
def Project.SameUpToPaths (a b : Except ProjectError Descriptor) : Prop :=
  a.mapError ProjectError.withoutPaths = b.mapError ProjectError.withoutPaths

section

variable {view : FileView} {dirs : List String} {own reference : String}

/-- Reads references from some directories. -/
def readFrom (view : FileView) (dirs : List String) : WebIdl.Reader Id :=
  (WebIdl.Search.mk dirs none).readIn view

theorem candidates_mk (dirs : List String) (reference : String) :
    (WebIdl.Search.mk dirs none).candidates reference = FilePath.candidates dirs reference := by
  unfold WebIdl.Search.candidates FilePath.candidates
  rw [Option.toList_none, List.append_nil]

/-- What is not missed is read alike with the further directory, or not found in either search. -/
theorem readFrom_append_of_not_misses (h : ¬view.Misses dirs own reference) :
    (readFrom view (dirs ++ [own]) reference : Except WebIdl.LoadError String)
        = readFrom view dirs reference ∨
      (readFrom view dirs reference
          = .error (.notFound reference (FilePath.candidates dirs reference)) ∧
        readFrom view (dirs ++ [own]) reference
          = .error (.notFound reference (FilePath.candidates (dirs ++ [own]) reference))) := by
  unfold readFrom
  by_cases hmeans : ∃ path, view.Means dirs reference path
  · obtain ⟨path, hpath⟩ := hmeans
    left
    rw [WebIdl.Search.readIn_of_means (candidates_mk _ _) hpath,
      WebIdl.Search.readIn_of_means (candidates_mk _ _) (means_append_of_means own hpath)]
  · right
    refine ⟨WebIdl.Search.readIn_of_forall_not_means (candidates_mk _ _) hmeans,
      WebIdl.Search.readIn_of_forall_not_means (candidates_mk _ _) ?_⟩
    rintro ⟨path, hpath⟩
    rcases misses_of_means_append hpath with hfound | hmisses
    · exact hmeans ⟨path, hfound⟩
    · exact h hmisses

/-- What is missed is not found without the further directory. -/
theorem readFrom_of_misses (h : view.Misses dirs own reference) :
    readFrom view dirs reference
      = .error (.notFound reference (FilePath.candidates dirs reference)) :=
  WebIdl.Search.readIn_of_forall_not_means (candidates_mk _ _) h.absent

/-- Loading comes to the same with a further directory, up to the paths that were searched, unless
    something is missed. -/
theorem loadInto_append_eq_or (view : FileView) (dirs : List String) (own : String)
    (doc : WebIdl.Document) (references : List String) :
    let nodes := references.map (Node.text .webIdlFile)
    (WebIdl.loadInto (readFrom view dirs) doc nodes :
        Except WebIdl.LoadError WebIdl.Document).mapError WebIdl.LoadError.withoutPaths
      = (WebIdl.loadInto (readFrom view (dirs ++ [own])) doc nodes :
        Except WebIdl.LoadError WebIdl.Document).mapError WebIdl.LoadError.withoutPaths ∨
    ∃ reference, view.Misses dirs own reference ∧
      WebIdl.loadInto (readFrom view dirs) doc nodes
        = .error (.notFound reference (FilePath.candidates dirs reference)) := by
  dsimp only
  induction references generalizing doc with
  | nil => exact Or.inl rfl
  | cons reference rest ih =>
    rw [List.map_cons, WebIdl.loadInto_cons, WebIdl.loadInto_cons]
    by_cases hmisses : view.Misses dirs own reference
    · right
      refine ⟨reference, hmisses, ?_⟩
      rw [readFrom_of_misses hmisses]
    · rcases readFrom_append_of_not_misses hmisses with hsame | ⟨hbare, hmore⟩
      · rw [hsame]
        cases (readFrom view dirs reference : Except WebIdl.LoadError String) with
        | error e => exact Or.inl rfl
        | ok source =>
          dsimp only
          cases (WebIdl.readSource source).2 with
          | error cause => exact Or.inl rfl
          | ok done => exact ih _
      · left
        rw [hbare, hmore]
        rfl

/-- The reference that is not found means no file. -/
theorem not_means_of_describe_eq_notFound {ss : List Binding.Statement} {searched : List String}
    (h : Project.describe (readFrom view dirs) (ss.map Binding.Statement.toNode)
      = .error (.generate (.descriptor (.load (.notFound reference searched))))) :
    ¬∃ path, view.Means dirs reference path := by
  have hread := fun other => WebIdl.Search.readIn_eq_notFound_iff view
    (candidates_mk dirs other) reference searched
  have hload := (describe_eq_descriptor_error_iff ..).1 h
  obtain ⟨-, hfails, -⟩ := (load_eq_notFound_iff _ _ _ _
    fun other hother => ((hread other).1 hother).1.symm).1 hload
  exact ((hread reference).1 hfails).2.2

theorem exists_of_withoutPaths_eq_notFound {x : Except ProjectError Descriptor}
    (h : x.mapError ProjectError.withoutPaths
      = .error (.generate (.descriptor (.load (.notFound reference []))))) :
    ∃ searched, x = .error (.generate (.descriptor (.load (.notFound reference searched)))) := by
  obtain ⟨e, rfl, he⟩ := exists_of_mapError_eq_error h
  unfold ProjectError.withoutPaths at he
  split at he
  · nomatch he
  · nomatch he
  · rename_i cause
    injection he with he
    injection he with he
    injection he with he
    unfold WebIdl.LoadError.withoutPaths at he
    split at he
    · rename_i other searched
      obtain rfl := (WebIdl.LoadError.notFound.inj he).1
      exact ⟨searched, rfl⟩
    · exact ⟨_, by rw [he]⟩
  · exact ⟨_, by rw [he]⟩

/-- A descriptor comes to the same with a further directory, unless a reference that is missed is
    not found without it. -/
theorem describe_append_eq_iff (view : FileView) (dirs : List String) (own : String)
    (ss : List Binding.Statement) :
    Project.SameUpToPaths (Project.describe (readFrom view dirs) (ss.map Binding.Statement.toNode))
        (Project.describe (readFrom view (dirs ++ [own])) (ss.map Binding.Statement.toNode)) ↔
      ¬∃ reference, view.Misses dirs own reference ∧
        Project.describe (readFrom view dirs) (ss.map Binding.Statement.toNode)
          = .error (.generate (.descriptor (.load
              (.notFound reference (FilePath.candidates dirs reference))))) := by
  constructor
  · rintro hsame ⟨reference, hmisses, hbare⟩
    unfold Project.SameUpToPaths at hsame
    rw [hbare] at hsame
    obtain ⟨searched, hmore⟩ := exists_of_withoutPaths_eq_notFound hsame.symm
    exact not_means_of_describe_eq_notFound hmore ⟨_, means_append_of_misses hmisses⟩
  · intro hnone
    unfold Project.SameUpToPaths
    cases hblock : Node.findKind? .binding (ss.map Binding.Statement.toNode) with
    | none =>
      unfold Project.describe
      rw [load_of_findKind?_eq_none _ hblock, load_of_findKind?_eq_none _ hblock]
    | some block =>
      have hload := fun read => load_of_findKind?_eq_some read hblock
      simp only [webIdl_load_eq] at hload
      rcases loadInto_append_eq_or view dirs own .empty
        (Binding.references (ss.map Binding.Statement.toNode)) with
        hsame | ⟨reference, hmisses, hbare⟩
      · unfold Project.describe
        rw [hload, hload]
        rcases cases_of_mapError_eq hsame with ⟨doc, hbare, hmore⟩ | ⟨e, e', hbare, hmore, he⟩
        · rw [hbare, hmore]
        · rw [hbare, hmore]
          exact congrArg (fun cause => Except.error
            (ProjectError.generate (.descriptor (.load cause)))) he
      · refine absurd ⟨reference, hmisses, ?_⟩ hnone
        rw [describe_eq_descriptor_error_iff, hload, hbare]

end

/-! ## Bare names -/

variable {name : String} {t : FileTree}

theorem view_text_dotted (h : IsBareName name) (t : FileTree) :
    t.view.text (dotted name) = t.view.text name := by
  have hread : t.view.read (dotted name) = t.view.read name := by
    show t.read _ = t.read _
    rw [FileTree.read, FileTree.read, FileTree.find_dotted h]
  rw [FileView.text, FileView.text, hread]

/-- The directory itself is no binding description. -/
theorem statementsIn_dot (t : FileTree) :
    Project.statementsIn t.view "." = .error (.readBinding "." .isADirectory) := rfl

theorem loadIn_bare (h : IsBareName name) (config : Config) {statements : List Node}
    (hstatements : Project.statementsIn t.view name = .ok statements) :
    Project.loadIn t.view config name
      = Project.describe (readFrom t.view config.idlPaths) statements := by
  unfold Project.loadIn Project.searchFor
  rw [hstatements, FilePath.parent?_bare h]
  rfl

theorem loadIn_dotted (h : IsBareName name) (config : Config) {statements : List Node}
    (hstatements : Project.statementsIn t.view name = .ok statements) :
    Project.loadIn t.view config (dotted name)
      = Project.describe (readFrom t.view (config.idlPaths ++ ["."])) statements := by
  have hdot : name ≠ "." := by
    rintro rfl
    rw [statementsIn_dot] at hstatements
    nomatch hstatements
  have hsame : Project.statementsIn t.view (dotted name) = .ok statements := by
    obtain ⟨source, htext, hparse⟩ := exists_source_of_statementsIn hstatements
    unfold Project.statementsIn
    rw [view_text_dotted h, htext]
    simp only [hparse]
    rfl
  have hsearch : ((Project.searchFor config (dotted name)).readIn t.view)
      = readFrom t.view (config.idlPaths ++ ["."]) := by
    have hcandidates : (Project.searchFor config (dotted name)).candidates
        = (WebIdl.Search.mk (config.idlPaths ++ ["."]) none).candidates := by
      funext reference
      unfold Project.searchFor WebIdl.Search.candidates
      rw [FilePath.parent?_dotted h hdot, Option.toList_none, List.append_nil]
      rfl
    funext reference
    unfold readFrom WebIdl.Search.readIn
    rw [hcandidates]
  unfold Project.loadIn
  rw [hsame, hsearch]

theorem loadIn_of_statementsIn_error (config : Config) {path : String} {e : ProjectError}
    (hstatements : Project.statementsIn t.view path = .error e) :
    Project.loadIn t.view config path = .error e := by
  unfold Project.loadIn
  rw [hstatements]

/-- What cannot be read by its bare name cannot be read behind `./`, for the same reason. -/
theorem statementsIn_dotted_of_error (h : IsBareName name) {e : ProjectError}
    (hstatements : Project.statementsIn t.view name = .error e) :
    ∃ e', Project.statementsIn t.view (dotted name) = .error e' ∧
      e'.withoutPaths = e.withoutPaths := by
  unfold Project.statementsIn at hstatements ⊢
  rw [view_text_dotted h]
  cases htext : t.view.text name with
  | error cause =>
    rw [htext] at hstatements
    obtain rfl := Except.error.inj hstatements
    exact ⟨_, rfl, rfl⟩
  | ok source =>
    rw [htext] at hstatements
    obtain ⟨cause, hparse, rfl⟩ := exists_of_mapError_eq_error hstatements
    dsimp only
    rw [hparse]
    exact ⟨_, rfl, rfl⟩

theorem join_dot {reference : String} (h : FilePath.isAbsolute reference = false) :
    FilePath.join "." reference = dotted reference := by
  unfold FilePath.join
  rw [h]
  rfl

/-- A description is loaded by its bare name as behind `./`, up to the paths in failures, unless the
    bare name fails because it does not find a reference that names a file beside the description.
    A descriptor that is loaded by the bare name is the same behind `./`, and `./` does nothing that
    a last search directory `.` would not do. -/
theorem load_dotted_eq_iff (h : IsBareName name) (config : Config) (t : FileTree) :
    let load := fun config path =>
      ((Project.load config path : StateM FileTree (Except ProjectError Descriptor)) t).1
    (Project.SameUpToPaths (load config name) (load config (dotted name)) ↔
      ¬∃ reference, FilePath.isAbsolute reference = false ∧
        t.view.isFile (dotted reference) = true ∧
        load config name = .error (.generate (.descriptor (.load
          (.notFound reference (FilePath.candidates config.idlPaths reference)))))) ∧
      (∀ d, load config name = .ok d → load config (dotted name) = .ok d) ∧
      Project.SameUpToPaths (load config (dotted name))
        (load { config with idlPaths := config.idlPaths ++ ["."] } name) := by
  intro load
  have hload : load = fun config path => Project.loadIn t.view config path := by
    funext config path
    show ((Project.load config path : StateM FileTree (Except ProjectError Descriptor)) t).1 = _
    rw [Project.load_apply t.shows]
  rw [hload]
  dsimp only
  cases hstatements : Project.statementsIn t.view name with
  | error e =>
    obtain ⟨e', hdotted, hsame⟩ := statementsIn_dotted_of_error h hstatements
    have hcode := exitCode_of_statementsIn hstatements
    rw [loadIn_of_statementsIn_error config hstatements,
      loadIn_of_statementsIn_error config hdotted, loadIn_of_statementsIn_error _ hstatements]
    refine ⟨⟨?_, ?_⟩, nofun, congrArg Except.error hsame⟩
    · rintro - ⟨reference, -, -, hbare⟩
      rw [Except.error.inj hbare] at hcode
      exact absurd hcode (show (4 : Nat) ≠ 2 by decide)
    · intro _
      exact congrArg Except.error hsame.symm
  | ok statements =>
    obtain ⟨source, -, hparse⟩ := exists_source_of_statementsIn hstatements
    obtain ⟨ss, rfl, -⟩ := Binding.exists_statements_of_parse hparse
    have hiff := describe_append_eq_iff t.view config.idlPaths "." ss
    have hlast : Project.loadIn t.view { config with idlPaths := config.idlPaths ++ ["."] } name
        = Project.describe (readFrom t.view (config.idlPaths ++ ["."]))
            (ss.map Binding.Statement.toNode) := loadIn_bare h _ hstatements
    rw [loadIn_bare h config hstatements, loadIn_dotted h config hstatements, hlast]
    refine ⟨?_, ?_, Eq.refl _⟩
    · rw [hiff, not_iff_not]
      constructor
      · rintro ⟨reference, hmisses, hbare⟩
        exact ⟨reference, hmisses.relative, join_dot hmisses.relative ▸ hmisses.beside, hbare⟩
      · rintro ⟨reference, hrelative, hfile, hbare⟩
        have habsent := not_means_of_describe_eq_notFound hbare
        exact ⟨reference, ⟨hrelative, habsent, (join_dot hrelative).symm ▸ hfile⟩, hbare⟩
    · intro d hd
      have hsame := hiff.2 (by
        rintro ⟨reference, -, hbare⟩
        rw [hd] at hbare
        nomatch hbare)
      rcases cases_of_mapError_eq hsame with ⟨d', hbare, hmore⟩ | ⟨e, -, hbare, -⟩
      · rw [hmore, ← hbare, hd]
      · nomatch hd.symm.trans hbare

/-- A description with the WebIDL file that it names beside it. -/
def sideBySide : FileTree :=
  ⟨[(["b.bnd"],
      .file "webidlfile \"node.idl\"; binding b \x7b interface Node; \x7d".toUTF8),
    (["node.idl"], .file "interface Node \x7b \x7d;".toUTF8)]⟩

theorem load_sideBySide :
    ((Project.load {} "b.bnd" : StateM FileTree (Except ProjectError Descriptor)) sideBySide).1
      = .error (.generate (.descriptor (.load (.notFound "node.idl" [])))) := by
  decide +kernel

/-- By its bare name the description is not loaded, with `./` in front it is. -/
theorem load_dotted_eq_iff_sideBySide :
    IsBareName "b.bnd" ∧
      ¬Project.SameUpToPaths
        ((Project.load {} "b.bnd" : StateM FileTree (Except ProjectError Descriptor)) sideBySide).1
        ((Project.load {} (dotted "b.bnd") :
          StateM FileTree (Except ProjectError Descriptor)) sideBySide).1 := by
  have hbare : IsBareName "b.bnd" := ⟨by decide, by decide⟩
  refine ⟨hbare, fun hsame => ?_⟩
  have hnone := (load_dotted_eq_iff hbare {} sideBySide).1.1 hsame
  have hfile : sideBySide.view.isFile "./node.idl" = true := by decide +kernel
  have hpath : dotted "node.idl" = "./node.idl" := by decide +kernel
  exact hnone ⟨"node.idl", by decide, hpath ▸ hfile, load_sideBySide⟩

/-- The spelling of the path makes a difference: a WebIDL file beside the description is found only
    if the path of the description has a directory part. -/
theorem bare_name_misses_neighbour :
    ¬∀ (t : FileTree) (config : Config) (name : String), IsBareName name →
      Project.SameUpToPaths
        ((Project.load config name : StateM FileTree (Except ProjectError Descriptor)) t).1
        ((Project.load config (dotted name) :
          StateM FileTree (Except ProjectError Descriptor)) t).1 := by
  intro hall
  have hsame := hall sideBySide {} "b.bnd" ⟨by decide, by decide⟩
  have hpath : dotted "b.bnd" = "./b.bnd" := by decide +kernel
  unfold Project.SameUpToPaths at hsame
  rw [load_sideBySide, hpath] at hsame
  revert hsame
  decide +kernel

end IdlBind
