import IdlBind.Command.Run
import IdlBind.Proofs.Generation.Confinement
import IdlBind.Proofs.Project.Output

set_option autoImplicit false

/-! # The order of the search directories

A reference of a binding description is searched for in the directories of the command line, then in
those of the configuration file, then beside the binding description. Merging the configurations
puts the directories into this order, and the search takes the first regular file
(`find?_candidates_eq_some_iff`). Only a reference that has none makes a run end because a file is
not found, and only if everything in front of it is read (`load_eq_notFound_iff`). -/

namespace IdlBind

/-! ## The first regular file -/

/-- The paths that a reference can mean, in the order of the directories. -/
def FilePath.candidates (dirs : List String) (reference : String) : List String :=
  if isAbsolute reference then [reference] else dirs.map fun dir => join dir reference

/-- A file is what a reference means: the one that an absolute reference names, else the regular
    file in a directory in front of which no other directory has one. -/
inductive FileView.Means (view : FileView) (dirs : List String) (reference : String) :
    String → Prop
  | absolute (habsolute : FilePath.isAbsolute reference = true)
      (hfile : view.isFile reference = true) : Means view dirs reference reference
  | relative {before after : List String} {dir : String}
      (hrelative : FilePath.isAbsolute reference = false) (hdirs : dirs = before ++ dir :: after)
      (hbefore : ∀ earlier ∈ before, view.isFile (FilePath.join earlier reference) = false)
      (hfile : view.isFile (FilePath.join dir reference) = true) :
      Means view dirs reference (FilePath.join dir reference)

variable {view : FileView} {dirs : List String} {reference : String}

theorem find?_candidates_eq_some_iff (view : FileView) (dirs : List String)
    (reference path : String) :
    (FilePath.candidates dirs reference).find? view.isFile = some path
      ↔ view.Means dirs reference path := by
  unfold FilePath.candidates
  by_cases habsolute : FilePath.isAbsolute reference = true
  · rw [if_pos habsolute]
    constructor
    · intro hfind
      obtain rfl := List.mem_singleton.1 (List.mem_of_find?_eq_some hfind)
      exact .absolute habsolute (List.find?_some hfind)
    · intro hmeans
      cases hmeans with
      | absolute _ hfile => exact List.find?_cons_of_pos hfile
      | relative hrelative => exact absurd habsolute (by simp [hrelative])
  · rw [if_neg habsolute, List.find?_map]
    constructor
    · intro hfind
      obtain ⟨dir, hdir, rfl⟩ := Option.map_eq_some_iff.1 hfind
      obtain ⟨hfile, before, after, hdirs, hbefore⟩ := List.find?_eq_some_iff_append.1 hdir
      exact .relative (Bool.not_eq_true _ ▸ habsolute) hdirs
        (fun earlier hearlier => by simpa using hbefore earlier hearlier) hfile
    · intro hmeans
      cases hmeans with
      | absolute habsolute' => exact absurd habsolute' habsolute
      | @relative before after dir _ hdirs hbefore hfile =>
        have hfirst : dirs.find? (view.isFile ∘ fun dir => FilePath.join dir reference)
            = some dir :=
          List.find?_eq_some_iff_append.2 ⟨hfile, before, after, hdirs,
            fun earlier hearlier => by simpa using hbefore earlier hearlier⟩
        rw [hfirst]
        rfl

namespace WebIdl.Search

variable {search : Search}

theorem readIn_of_means (hcandidates : search.candidates reference
    = FilePath.candidates dirs reference) {path : String} (h : view.Means dirs reference path) :
    search.readIn view reference = (view.text path).mapError (.file path) := by
  unfold readIn
  rw [hcandidates, (find?_candidates_eq_some_iff view dirs reference path).2 h]

theorem readIn_of_forall_not_means (hcandidates : search.candidates reference
    = FilePath.candidates dirs reference) (h : ¬∃ path, view.Means dirs reference path) :
    search.readIn view reference
      = .error (.notFound reference (FilePath.candidates dirs reference)) := by
  unfold readIn
  rw [hcandidates]
  cases hfind : (FilePath.candidates dirs reference).find? view.isFile with
  | none => rfl
  | some path => exact absurd ⟨path, (find?_candidates_eq_some_iff ..).1 hfind⟩ h

theorem readIn_eq_notFound_iff (view : FileView) (hcandidates : search.candidates reference
    = FilePath.candidates dirs reference) (other : String) (searched : List String) :
    search.readIn view reference = .error (.notFound other searched) ↔
      other = reference ∧ searched = FilePath.candidates dirs reference ∧
        ¬∃ path, view.Means dirs reference path := by
  constructor
  · intro hread
    by_cases hmeans : ∃ path, view.Means dirs reference path
    · obtain ⟨path, hpath⟩ := hmeans
      rw [readIn_of_means hcandidates hpath] at hread
      cases htext : view.text path with
      | error cause => rw [htext] at hread; nomatch hread
      | ok text => rw [htext] at hread; nomatch hread
    · rw [readIn_of_forall_not_means hcandidates hmeans] at hread
      obtain ⟨rfl, rfl⟩ := LoadError.notFound.inj (Except.error.inj hread)
      exact ⟨rfl, rfl, hmeans⟩
  · rintro ⟨rfl, rfl, hmeans⟩
    exact readIn_of_forall_not_means hcandidates hmeans

end WebIdl.Search

/-! ## The whole description -/

/-- A descriptor cannot be loaded because a file is not found if there is a binding block and, of
    all references, the first that cannot be read and parsed is not found. -/
theorem load_eq_notFound_iff (read : WebIdl.Reader Id) (ss : List Binding.Statement)
    (reference : String) (searched : List String)
    (hname : ∀ r, read r = .error (.notFound reference searched) → r = reference) :
    Descriptor.load read (ss.map Binding.Statement.toNode)
        = .error (.load (.notFound reference searched)) ↔
      (Node.findKind? .binding (ss.map Binding.Statement.toNode)).isSome = true ∧
        read reference = .error (.notFound reference searched) ∧
        ∃ before after, Binding.references (ss.map Binding.Statement.toNode)
            = before ++ reference :: after ∧
          ∀ earlier ∈ before, ∃ source nodes, read earlier = .ok source ∧
            WebIdl.parse source = .ok nodes := by
  cases hblock : Node.findKind? .binding (ss.map Binding.Statement.toNode) with
  | none =>
    rw [load_of_findKind?_eq_none read hblock]
    exact ⟨nofun, fun h => absurd h.1 (by simp)⟩
  | some block =>
    have hload : Descriptor.load read (ss.map Binding.Statement.toNode)
          = .error (.load (.notFound reference searched)) ↔
        WebIdl.load read (ss.map Binding.Statement.toNode)
          = .error (.notFound reference searched) := by
      rw [load_of_findKind?_eq_some read hblock]
      cases WebIdl.load read (ss.map Binding.Statement.toNode) with
      | error cause => exact ⟨fun h => by cases h; rfl, fun h => by cases h; rfl⟩
      | ok doc =>
        obtain ⟨-, -, name, entries, rfl⟩ := exists_block_of_findKind? hblock
        dsimp only
        rw [ofTrees_of_block _ hblock]
        split <;> exact ⟨nofun, nofun⟩
    rw [hload, webIdl_load_eq, WebIdl.loadInto_eq_error_iff]
    constructor
    · rintro ⟨before, r, after, hsplit, hbefore, hread | ⟨_, _, -, -, hparse⟩⟩
      · obtain rfl := hname r hread
        exact ⟨rfl, hread, before, after, hsplit, hbefore⟩
      · exact absurd hparse (by simp)
    · rintro ⟨-, hread, before, after, hsplit, hbefore⟩
      exact ⟨before, reference, after, hsplit, hbefore, Or.inl hread⟩

/-! ## Under the settings of the command line -/

/-- The search under merged configurations, for a description with a directory part. -/
theorem candidates_searchFor_merge (file settings : Config) {path dir : String}
    (hdir : FilePath.parent? path = some dir) (hne : dir ≠ "") (reference : String) :
    (Project.searchFor (file.merge settings) path).candidates reference
      = FilePath.candidates (settings.idlPaths ++ file.idlPaths ++ [dir]) reference := by
  have hbase : (some dir).filter (· ≠ "") = some dir := by simp [Option.filter, hne]
  unfold Project.searchFor WebIdl.Search.candidates FilePath.candidates
  rw [hdir, hbase]
  rfl

section

variable {σ : Type} [FileStore (StateM σ)] {s : σ}

/-- Generates into a file, if one is named, else into a sink. -/
def Project.generateTo {m : Type → Type} [Monad m] [FileStore m] (config : Config) (path : String) :
    Option String → m Outcome
  | none => generate config path
  | some output => generateFile config path output

theorem snd_config_load (hshows : Shows s view) (name : String) :
    ((Config.load name : StateM σ (Except ConfigError Config)) s).2 = s := by
  unfold Config.load
  rw [bind_apply_of_eq (hshows.readText name)]
  cases view.text name with
  | error cause => rfl
  | ok text =>
    dsimp only
    cases Config.ofText? text <;> rfl

theorem findNonDirectory?_apply (hshows : Shows s view) (paths : List String) :
    (Config.findNonDirectory? paths : StateM σ (Option String)) s
      = (paths.find? fun path =>
          view.kindOf? path = some .file || view.kindOf? path = some .other, s) := by
  induction paths with
  | nil => rfl
  | cons path paths ih =>
    rw [Config.findNonDirectory?, bind_apply_of_eq (hshows.kindOf? path), List.find?_cons]
    cases hkind : view.kindOf? path with
    | none => exact ih
    | some kind =>
      cases kind with
      | directory => exact ih
      | file => rfl
      | other => rfl

theorem snd_validate (hshows : Shows s view) (config : Config) :
    ((config.validate : StateM σ (Except ConfigError Unit)) s).2 = s := by
  unfold Config.validate
  cases config.backend?.filter fun name => (Backend.ofName? name).isNone with
  | some name => rfl
  | none =>
    dsimp only
    rw [bind_apply_of_eq (findNonDirectory?_apply hshows _)]
    cases config.idlPaths.find? _ <;> rfl

/-- The command generates under the settings of the command line, merged into the configuration of
    the file, if one is named. -/
theorem runGenerate_apply (hshows : Shows s view) {config? : Option String}
    {file settings : Config}
    (hfile : match config? with
      | none => file = {}
      | some name => ((Config.load name : StateM σ (Except ConfigError Config)) s).1 = .ok file)
    (hvalid : (((file.merge settings).validate : StateM σ (Except ConfigError Unit)) s).1
      = .ok ())
    (path : String) (output? : Option String) :
    (Command.runGenerate config? path output? settings : StateM σ Command.Outcome) s
      = let generation := (Project.generateTo (file.merge settings) path output? :
          StateM σ Project.Outcome) s
        (.ofGeneration generation.1 (if output?.isNone then generation.1.output else .empty),
          generation.2) := by
  have hconfig : (Command.configFor config? settings : StateM σ (Except ConfigError Config)) s
      = (.ok (file.merge settings), s) := by
    cases config? with
    | none =>
      subst hfile
      rfl
    | some name =>
      have hload : (Config.load name : StateM σ (Except ConfigError Config)) s = (.ok file, s) :=
        Prod.ext hfile (snd_config_load hshows name)
      unfold Command.configFor
      dsimp only
      rw [bind_apply_of_eq hload]
      rfl
  have husable : (Command.usableConfig config? settings : StateM σ (Except ConfigError Config)) s
      = (.ok (file.merge settings), s) := by
    have hvalidate : ((file.merge settings).validate : StateM σ (Except ConfigError Unit)) s
        = (.ok (), s) := Prod.ext hvalid (snd_validate hshows _)
    unfold Command.usableConfig
    rw [bind_apply_of_eq hconfig]
    dsimp only
    rw [bind_apply_of_eq hvalidate]
    rfl
  unfold Command.runGenerate
  rw [bind_apply_of_eq husable]
  cases output? <;> rfl

/-- How generating ends: as it was prepared, as its sections end, or because the output cannot be
    opened. -/
theorem result_generateTo (hshows : Shows s view) (config : Config) (path : String)
    (output? : Option String) :
    let result := ((Project.generateTo config path output? : StateM σ Project.Outcome) s).1.result
    match Project.prepareIn view config path with
    | .error e => result = .error e
    | .ok (d, backend) =>
      result = (Project.Outcome.ofRun (emitAll .unlimited backend d)).result ∨
        ∃ output cause, result = .error (.openOutput output cause) := by
  intro result
  cases output? with
  | none =>
    have hresult : result = _ :=
      congrArg (fun outcome => outcome.1.result) (Project.generate_apply hshows config path)
    cases hprepare : Project.prepareIn view config path with
    | error e => rw [hresult, hprepare]; rfl
    | ok prepared => rw [hresult, hprepare]; exact Or.inl rfl
  | some output =>
    have hresult : result = _ :=
      congrArg (fun outcome => outcome.1.result)
        (Project.generateFile_apply hshows config path output)
    cases hprepare : Project.prepareIn view config path with
    | error e => rw [hresult, hprepare]; rfl
    | ok prepared =>
      rw [hresult, hprepare]
      dsimp only
      cases (FileStore.write output (emitAll .unlimited prepared.2 prepared.1).output :
          StateM σ (Except FileError Unit)) s with
      | mk outcome after =>
        cases outcome with
        | error cause => exact Or.inr ⟨output, cause, rfl⟩
        | ok done => exact Or.inl rfl

/-- Generating fails in the descriptor just where loading does. -/
theorem generateTo_eq_descriptor_error_iff (hshows : Shows s view) (config : Config) (path : String)
    (output? : Option String) (cause : DescriptorError) :
    ((Project.generateTo config path output? : StateM σ Project.Outcome) s).1.result
        = .error (.generate (.descriptor cause)) ↔
      Project.loadIn view config path = .error (.generate (.descriptor cause)) := by
  have hends := result_generateTo hshows config path output?
  dsimp only at hends
  unfold Project.prepareIn at hends
  cases hload : Project.loadIn view config path with
  | error e =>
    rw [hload] at hends
    rw [hends]
    exact ⟨fun h => by rw [Except.error.inj h], fun h => by rw [Except.error.inj h]⟩
  | ok d =>
    -- whatever fails behind the descriptor has another status
    have hother : ∀ e, ((Project.generateTo config path output? :
        StateM σ Project.Outcome) s).1.result = .error e → e.exitCode ≠ 4 := by
      intro e he
      rw [hload, he] at hends
      dsimp only at hends
      cases hselect : Project.selectBackend config d with
      | error e' =>
        rw [hselect] at hends
        rw [Except.error.inj hends, exitCode_of_selectBackend hselect]
        decide
      | ok backend =>
        rw [hselect] at hends
        rcases hends with hrun | ⟨output, fault, hopen⟩
        · have hhigh := ofRun_emitAll backend d
          dsimp only at hhigh
          rw [← hrun] at hhigh
          exact Nat.ne_of_gt hhigh
        · rw [Except.error.inj hopen]
          show (3 : Nat) ≠ 4
          decide
    constructor
    · intro h
      exact absurd rfl (hother _ h)
    · nofun

theorem exists_source_of_statementsIn {path : String} {statements : List Node}
    (h : Project.statementsIn view path = .ok statements) :
    ∃ source, view.text path = .ok source ∧ Binding.parse source = .ok statements := by
  unfold Project.statementsIn at h
  cases htext : view.text path with
  | error cause => rw [htext] at h; nomatch h
  | ok source =>
    rw [htext] at h
    cases hparse : Binding.parse source with
    | error cause => simp only [hparse] at h; nomatch h
    | ok trees =>
      simp only [hparse] at h
      obtain rfl := Except.ok.inj h
      exact ⟨source, rfl, hparse⟩

theorem describe_eq_descriptor_error_iff (read : WebIdl.Reader Id) (statements : List Node)
    (cause : DescriptorError) :
    Project.describe read statements = .error (.generate (.descriptor cause)) ↔
      Descriptor.load read statements = .error cause := by
  unfold Project.describe
  cases (Descriptor.load read statements : Except DescriptorError Descriptor) with
  | error cause' => exact ⟨fun h => by cases h; rfl, fun h => by cases h; rfl⟩
  | ok d => exact ⟨nofun, nofun⟩

/-- A description in a directory `dir` is read under a configuration file and a command line whose
    settings can be used together. References then mean files in the directories of the command
    line, of the configuration file and in `dir`, in this order: the descriptor is made of the texts
    of these files. Whether it goes to a file or not, generating fails because a reference is not
    found if and only if there is a binding block and the reference means no file, while all
    references in front of it are read and parsed; the failure lists all the paths, in order. -/
theorem references_searched_in_order (hshows : Shows s view) (config? : Option String)
    (file settings : Config) (path : String) {dir : String} {statements : List Node}
    (hfile : match config? with
      | none => file = {}
      | some name => ((Config.load name : StateM σ (Except ConfigError Config)) s).1 = .ok file)
    (hvalid : (((file.merge settings).validate : StateM σ (Except ConfigError Unit)) s).1
      = .ok ())
    (hdir : FilePath.parent? path = some dir) (hne : dir ≠ "")
    (hstatements : Project.statementsIn view path = .ok statements) :
    let config := file.merge settings
    let dirs := settings.idlPaths ++ file.idlPaths ++ [dir]
    ∃ read : WebIdl.Reader Id,
      (∀ reference found, view.Means dirs reference found →
        read reference = (view.text found).mapError (.file found)) ∧
      (∀ reference, (¬∃ found, view.Means dirs reference found) →
        read reference = .error (.notFound reference (FilePath.candidates dirs reference))) ∧
      (Project.load config path : StateM σ (Except ProjectError Descriptor)) s
        = (Project.describe read statements, s) ∧
      ∀ output?,
        let generation := (Project.generateTo config path output? : StateM σ Project.Outcome) s
        (Command.runGenerate config? path output? settings : StateM σ Command.Outcome) s
            = (.ofGeneration generation.1
                (if output?.isNone then generation.1.output else .empty), generation.2) ∧
          ∀ reference searched,
            generation.1.result
                = .error (.generate (.descriptor (.load (.notFound reference searched)))) ↔
              searched = FilePath.candidates dirs reference ∧
                (¬∃ found, view.Means dirs reference found) ∧
                (Node.findKind? .binding statements).isSome = true ∧
                ∃ before after, Binding.references statements = before ++ reference :: after ∧
                  ∀ earlier ∈ before, ∃ source nodes, read earlier = .ok source ∧
                    WebIdl.parse source = .ok nodes := by
  intro config dirs
  have hcandidates := candidates_searchFor_merge file settings hdir hne
  have hloadIn : Project.loadIn view config path
      = Project.describe ((Project.searchFor config path).readIn view) statements := by
    unfold Project.loadIn
    rw [hstatements]
  refine ⟨(Project.searchFor config path).readIn view, ?_, ?_, ?_, ?_⟩
  · intro reference found hmeans
    exact WebIdl.Search.readIn_of_means (hcandidates reference) hmeans
  · intro reference hmeans
    exact WebIdl.Search.readIn_of_forall_not_means (hcandidates reference) hmeans
  · rw [Project.load_apply hshows, hloadIn]
  · intro output?
    refine ⟨runGenerate_apply hshows hfile hvalid path output?, ?_⟩
    intro reference searched
    obtain ⟨source, -, hparse⟩ := exists_source_of_statementsIn hstatements
    obtain ⟨ss, rfl, -⟩ := Binding.exists_statements_of_parse hparse
    have hread := WebIdl.Search.readIn_eq_notFound_iff view (hcandidates reference)
      reference searched
    rw [generateTo_eq_descriptor_error_iff hshows, hloadIn, describe_eq_descriptor_error_iff,
      load_eq_notFound_iff _ _ _ _ fun other hother =>
        ((WebIdl.Search.readIn_eq_notFound_iff view (hcandidates other) reference searched).1
          hother).1.symm, hread]
    constructor
    · rintro ⟨hblock, ⟨-, hsearched, hmeans⟩, hbefore⟩
      exact ⟨hsearched, hmeans, hblock, hbefore⟩
    · rintro ⟨hsearched, hmeans, hblock, hbefore⟩
      exact ⟨hblock, ⟨rfl, hsearched, hmeans⟩, hbefore⟩

end

/-- A configuration file that names the directory `conf`, a command line that names `cli`, and a
    description in `src` with two references. -/
def layeredTree : FileTree :=
  ⟨[(["cli"], .directory), (["conf"], .directory), (["src"], .directory),
    (["glue.toml"], .file "idl_paths = [\"conf\"]".toUTF8),
    (["conf", "a.idl"], .file "interface A \x7b \x7d;".toUTF8),
    (["src", "a.idl"], .file "interface B \x7b \x7d;".toUTF8),
    (["src", "b.bnd"],
      .file "webidlfile \"a.idl\"; webidlfile \"c.idl\"; binding b \x7b interface A; \x7d".toUTF8)]⟩

/-- The first reference is read from `conf`, since `cli` has no such file; the second is not found,
    and all three directories are named. -/
theorem references_searched_in_order_layered :
    (∃ read : WebIdl.Reader Id, read "a.idl" = .ok "interface A \x7b \x7d;" ∧
      (Project.load (Config.merge { idlPaths := ["conf"] } { idlPaths := ["cli"] }) "src/b.bnd" :
          StateM FileTree (Except ProjectError Descriptor)) layeredTree
        = (Project.describe read [.text .webIdlFile "a.idl", .text .webIdlFile "c.idl",
            .list .binding [.text .ident "b", .text .bindingInterface "A"]], layeredTree)) ∧
      ((Project.generate (Config.merge { idlPaths := ["conf"] } { idlPaths := ["cli"] })
          "src/b.bnd" : StateM FileTree Project.Outcome) layeredTree).1.result
        = .error (.generate (.descriptor (.load
            (.notFound "c.idl" ["cli/c.idl", "conf/c.idl", "src/c.idl"])))) := by
  have hdir : FilePath.parent? "src/b.bnd" = some "src" := by decide +kernel
  have hstatements : Project.statementsIn layeredTree.view "src/b.bnd"
      = .ok [.text .webIdlFile "a.idl", .text .webIdlFile "c.idl",
          .list .binding [.text .ident "b", .text .bindingInterface "A"]] := by decide +kernel
  obtain ⟨read, hmeans, -, hload, hrun⟩ := references_searched_in_order layeredTree.shows
    (some "glue.toml") { idlPaths := ["conf"] } { idlPaths := ["cli"] } "src/b.bnd"
    (by decide +kernel) (by decide +kernel) hdir (by decide) hstatements
  have hfirst : read "a.idl" = .ok "interface A \x7b \x7d;" := by
    have htext : layeredTree.view.text "conf/a.idl"
        = .ok "interface A \x7b \x7d;" := by decide +kernel
    have hfound := hmeans "a.idl" "conf/a.idl"
      ((find?_candidates_eq_some_iff ..).1 (by decide +kernel))
    rw [hfound, htext]
    rfl
  obtain ⟨nodes, hnodes⟩ := (WebIdl.parse_isOk_iff "interface A \x7b \x7d;").2
    (by decide +kernel)
  refine ⟨⟨read, hfirst, hload⟩, ((hrun none).2 _ _).2 ⟨by decide +kernel, ?_, by decide, ?_⟩⟩
  · rintro ⟨found, hfound⟩
    have hsome := (find?_candidates_eq_some_iff ..).2 hfound
    have hnone : (FilePath.candidates ["cli", "conf", "src"] "c.idl").find?
        layeredTree.view.isFile = none := by decide +kernel
    exact absurd (hsome.symm.trans hnone) (by simp)
  · exact ⟨["a.idl"], [], rfl, fun earlier hearlier => by
      obtain rfl := List.mem_singleton.1 hearlier
      exact ⟨_, nodes, hfirst, hnodes⟩⟩

end IdlBind
