import IdlBind.Files.Tree
import IdlBind.Project

set_option autoImplicit false

/-! # Reading files

Reading changes no file. Where a store shows certain files (`Shows`), whatever is read in order to
generate is a function of what it shows. Each reader has its function here (`readText_apply`,
`Search.read_apply`, `load_apply`), up to generating into a sink and into a file (`generate_apply`,
`generateFile_apply`), of which only the latter writes. -/

namespace IdlBind

/-! ## What a store shows -/

/-- What can be read: the kinds and the bytes of files by their paths. -/
structure FileView where
  kindOf? : String → Option FileKind
  read : String → Except FileError ByteArray

namespace FileView

variable (view : FileView)

/-- Does the path name a regular file? -/
def isFile (path : String) : Bool := decide (view.kindOf? path = some .file)

/-- The text of a file. -/
def text (path : String) : Except FileError String :=
  match view.read path with
  | .error cause => .error cause
  | .ok bytes =>
    match Text.decode? bytes with
    | some text => .ok text
    | none => .error .notText

end FileView

/-- In this state, a store shows certain files, and reading leaves the state as it is. -/
structure Shows {σ : Type} [FileStore (StateM σ)] (s : σ) (view : FileView) : Prop where
  kindOf? : ∀ path, (FileStore.kindOf? path : StateM σ (Option FileKind)) s
    = (view.kindOf? path, s)
  read : ∀ path, (FileStore.read path : StateM σ (Except FileError ByteArray)) s
    = (view.read path, s)

/-- What a tree shows. -/
def FileTree.view (t : FileTree) : FileView := ⟨t.kindOf?, t.read⟩

theorem FileTree.shows (t : FileTree) : Shows t t.view := ⟨fun _ => rfl, fun _ => rfl⟩

theorem bind_apply_of_eq {σ α β : Type} {s after : σ} {x : StateM σ α} {a : α}
    (h : x s = (a, after)) (f : α → StateM σ β) : (x >>= f) s = f a after := by
  show f (x s).1 (x s).2 = f a after
  rw [h]

variable {σ : Type} [FileStore (StateM σ)] {s : σ} {view : FileView}

theorem Shows.isFile (h : Shows s view) (path : String) :
    (FileStore.isFile path : StateM σ Bool) s = (view.isFile path, s) :=
  bind_apply_of_eq (h.kindOf? path) _

theorem Shows.readText (h : Shows s view) (path : String) :
    (FileStore.readText path : StateM σ (Except FileError String)) s = (view.text path, s) := by
  unfold FileStore.readText FileView.text
  rw [bind_apply_of_eq (h.read path)]
  cases view.read path with
  | error cause => rfl
  | ok bytes =>
    dsimp only
    cases Text.decode? bytes <;> rfl

/-! ## References -/

namespace WebIdl

namespace Search

/-- The text that a reference means. -/
def readIn (search : Search) (view : FileView) : Reader Id := fun reference =>
  match (search.candidates reference).find? view.isFile with
  | none => .error (.notFound reference (search.candidates reference))
  | some path => (view.text path).mapError (.file path)

theorem firstFile?_apply (h : Shows s view) (paths : List String) :
    (firstFile? paths : StateM σ (Option String)) s = (paths.find? view.isFile, s) := by
  induction paths with
  | nil => rfl
  | cons path paths ih =>
    rw [firstFile?, bind_apply_of_eq (h.isFile path)]
    cases hfile : view.isFile path with
    | true => rw [List.find?_cons_of_pos hfile]; rfl
    | false =>
      rw [List.find?_cons_of_neg (by simp [hfile]), ← ih]
      rfl

theorem read_apply (h : Shows s view) (search : Search) (reference : String) :
    (search.read reference : StateM σ (Except LoadError String)) s
      = (search.readIn view reference, s) := by
  have hlocate : (search.locate reference : StateM σ (Except LoadError String)) s
      = (match (search.candidates reference).find? view.isFile with
        | some path => .ok path
        | none => .error (.notFound reference (search.candidates reference)), s) := by
    unfold locate
    rw [bind_apply_of_eq (firstFile?_apply h _)]
    cases (search.candidates reference).find? view.isFile <;> rfl
  unfold read readIn
  rw [bind_apply_of_eq hlocate]
  cases (search.candidates reference).find? view.isFile with
  | none => rfl
  | some path =>
    dsimp only
    rw [bind_apply_of_eq (h.readText path)]
    cases view.text path <;> rfl

end Search

variable {read : Reader (StateM σ)} {readIn : Reader Id}

omit [FileStore (StateM σ)] in
theorem loadInto_apply (h : ∀ reference, read reference s = (readIn reference, s))
    (doc : Document) (nodes : List Node) :
    loadInto read doc nodes s = (loadInto readIn doc nodes, s) := by
  induction nodes generalizing doc with
  | nil => rfl
  | cons node rest ih =>
    simp only [loadInto]
    cases node.getText with
    | error cause => rfl
    | ok reference =>
      dsimp only
      rw [bind_apply_of_eq (h reference)]
      simp only [bind]
      cases readIn reference with
      | error e => rfl
      | ok source =>
        dsimp only
        rcases doc.addSource source with ⟨doc', e | ⟨⟩⟩
        · rfl
        · exact ih doc'

end WebIdl

omit [FileStore (StateM σ)] in
theorem descriptor_load_apply {read : WebIdl.Reader (StateM σ)} {readIn : WebIdl.Reader Id}
    (h : ∀ reference, read reference s = (readIn reference, s)) (statements : List Node) :
    Descriptor.load read statements s = (Descriptor.load readIn statements, s) := by
  unfold Descriptor.load
  by_cases hnone : (Node.findKind? .binding statements).isNone = true
  · rw [if_pos hnone, if_pos hnone]
    rfl
  · rw [if_neg hnone, if_neg hnone]
    unfold WebIdl.load
    rw [bind_apply_of_eq (WebIdl.loadInto_apply h _ _)]
    simp only [bind]
    cases WebIdl.loadInto readIn .empty (Node.eachKind .webIdlFile statements) <;> rfl

/-! ## Generating -/

namespace Project

/-- The trees of a binding description in a file. -/
def statementsIn (view : FileView) (path : String) : Except ProjectError (List Node) :=
  match view.text path with
  | .error cause => .error (.readBinding path cause)
  | .ok text => (Binding.parse text).mapError (.parseBinding path)

/-- The descriptor of some statements, with references read in a certain way. -/
def describe (read : WebIdl.Reader Id) (statements : List Node) :
    Except ProjectError Descriptor :=
  (Descriptor.load read statements : Except DescriptorError Descriptor).mapError
    fun cause => .generate (.descriptor cause)

/-- The descriptor of a binding description in a file. -/
def loadIn (view : FileView) (config : Config) (path : String) :
    Except ProjectError Descriptor :=
  match statementsIn view path with
  | .error e => .error e
  | .ok statements => describe ((searchFor config path).readIn view) statements

/-- The descriptor and the backend for it. -/
def prepareIn (view : FileView) (config : Config) (path : String) :
    Except ProjectError (Descriptor × Backend) :=
  match loadIn view config path with
  | .error e => .error e
  | .ok d => (selectBackend config d).map fun backend => (d, backend)

theorem readStatements_apply (h : Shows s view) (path : String) :
    (readStatements path : StateM σ (Except ProjectError (List Node))) s
      = (statementsIn view path, s) := by
  unfold readStatements statementsIn
  rw [bind_apply_of_eq (h.readText path)]
  cases view.text path <;> rfl

theorem load_apply (h : Shows s view) (config : Config) (path : String) :
    (load config path : StateM σ (Except ProjectError Descriptor)) s
      = (loadIn view config path, s) := by
  unfold load loadIn
  rw [bind_apply_of_eq (readStatements_apply h path)]
  cases statementsIn view path with
  | error e => rfl
  | ok statements =>
    dsimp only [describe]
    rw [bind_apply_of_eq (descriptor_load_apply (WebIdl.Search.read_apply h _) _)]
    cases (Descriptor.load ((searchFor config path).readIn view) statements :
      Except DescriptorError Descriptor) <;> rfl

theorem prepare_apply (h : Shows s view) (config : Config) (path : String) :
    (prepare config path : StateM σ (Except ProjectError (Descriptor × Backend))) s
      = (prepareIn view config path, s) := by
  unfold prepare prepareIn
  rw [bind_apply_of_eq (load_apply h config path)]
  cases loadIn view config path <;> rfl

/-- Generating into a sink changes no file. -/
theorem generate_apply (h : Shows s view) (config : Config) (path : String) :
    (generate config path : StateM σ Outcome) s
      = (match prepareIn view config path with
        | .error e => .failed e
        | .ok (d, backend) => .ofRun (emitAll .unlimited backend d), s) := by
  unfold generate
  rw [bind_apply_of_eq (prepare_apply h config path)]
  cases prepareIn view config path <;> rfl

/-- Generating into a file writes once everything is loaded. -/
theorem generateFile_apply (h : Shows s view) (config : Config) (path output : String) :
    (generateFile config path output : StateM σ Outcome) s
      = match prepareIn view config path with
        | .error e => (.failed e, s)
        | .ok (d, backend) =>
          let run := emitAll .unlimited backend d
          match (FileStore.write output run.output : StateM σ (Except FileError Unit)) s with
          | (.error cause, after) => (.failed (.openOutput output cause), after)
          | (.ok (), after) => (.ofRun run, after) := by
  unfold generateFile
  rw [bind_apply_of_eq (prepare_apply h config path)]
  cases prepareIn view config path with
  | error e => rfl
  | ok prepared =>
    obtain ⟨d, backend⟩ := prepared
    dsimp only
    cases hwrite : (FileStore.write output (emitAll .unlimited backend d).output :
      StateM σ (Except FileError Unit)) s with
    | mk outcome after =>
      rw [bind_apply_of_eq hwrite]
      cases outcome <;> rfl

end Project

end IdlBind
