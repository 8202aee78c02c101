import IdlBind.Files.Tree

set_option autoImplicit false

/-! # Writing into a tree of files

A write that succeeds changes one place: there is the file with its bytes, and every other place is
as it was (`isWritten_of_write`). Paths are walked as before (`place_put`), since the place is a
directory neither before the write nor behind it, so that no path leads through it. -/

namespace IdlBind.FileTree

/-- One tree is another with a file written at a path: the file has the bytes, no other place has
    changed, and all paths to other places name what they named. -/
structure IsWritten (before : FileTree) (path : String) (bytes : ByteArray) (after : FileTree) :
    Prop where
  read : after.read path = .ok bytes
  places : ∃ names, before.place path = .ok (.inside names) ∧
    ∀ here, here ≠ .inside names → after.entryAt? here = before.entryAt? here
  paths : ∀ other, before.place other ≠ before.place path →
    (after.find other).toOption = (before.find other).toOption

/-! ## Paths -/

section

variable {t : FileTree} {names : List String}

/-- Can nothing be reached through the place? -/
def IsClosed (t : FileTree) (names : List String) : Prop :=
  t.entryAt? (.inside names) ≠ some .directory

/-- The place of a directory without a name is the root, which is a directory. -/
theorem IsClosed.ne_nil (h : t.IsClosed names) : names ≠ [] := by
  intro hnil
  subst hnil
  exact h rfl

/-- From a place that is not a directory no path goes on. -/
theorem step_of_not_directory {here : Place} (h : t.entryAt? here ≠ some .directory)
    (component : String) : (t.step here component).toOption = none := by
  unfold step
  cases hentry : t.entryAt? here with
  | none => rfl
  | some entry =>
    cases entry with
    | file bytes => rfl
    | directory => exact absurd hentry h

theorem step_put (h : t.IsClosed names) (bytes : ByteArray) (here : Place) (component : String) :
    ((t.put names (.file bytes)).step here component).toOption
      = (t.step here component).toOption := by
  by_cases hhere : here = .inside names
  · subst hhere
    have hafter : (t.put names (.file bytes)).entryAt? (.inside names) ≠ some .directory := by
      rw [entryAt?_put_self t _ h.ne_nil]
      simp
    rw [step_of_not_directory h, step_of_not_directory hafter]
  · unfold step
    rw [entryAt?_put_of_ne t _ hhere]

theorem toOption_walk_cons (t : FileTree) (here : Place) (component : String)
    (components : List String) : (t.walk here (component :: components)).toOption
      = (t.step here component).toOption.bind fun next => (t.walk next components).toOption := by
  rw [walk]
  cases t.step here component <;> rfl

theorem walk_put (h : t.IsClosed names) (bytes : ByteArray) (here : Place)
    (components : List String) :
    ((t.put names (.file bytes)).walk here components).toOption
      = (t.walk here components).toOption := by
  induction components generalizing here with
  | nil => rfl
  | cons component components ih =>
    rw [toOption_walk_cons, toOption_walk_cons, step_put h]
    congr 1
    funext next
    exact ih next

/-- Paths name the places that they named. -/
theorem place_put (h : t.IsClosed names) (bytes : ByteArray) (path : String) :
    ((t.put names (.file bytes)).place path).toOption = (t.place path).toOption := by
  unfold place
  by_cases hnul : path.toList.contains '\x00' = true
  · rw [if_pos hnul, if_pos hnul]
  by_cases hempty : path.isEmpty = true
  · rw [if_neg hnul, if_neg hnul, if_pos hempty, if_pos hempty]
  by_cases hlong : path.utf8ByteSize > pathLimit
  · rw [if_neg hnul, if_neg hnul, if_neg hempty, if_neg hempty, if_pos hlong, if_pos hlong]
  · rw [if_neg hnul, if_neg hnul, if_neg hempty, if_neg hempty, if_neg hlong, if_neg hlong]
    exact walk_put h bytes _ _

/-- What stands at a place, as a path names it. -/
def entryFor? (t : FileTree) (path : String) (here : Place) : Option FileEntry :=
  (t.entryAt? here).filter fun entry => entry.isDirectory || !FilePath.endsInSlash path

theorem toOption_find (t : FileTree) (path : String) :
    (t.find path).toOption = (t.place path).toOption.bind (t.entryFor? path) := by
  unfold find
  cases t.place path with
  | error e => rfl
  | ok here =>
    show _ = t.entryFor? path here
    unfold entryFor?
    cases hentry : t.entryAt? here with
    | none => simp only [hentry, Option.filter_none]; rfl
    | some entry =>
      cases entry with
      | directory => simp only [hentry]; rfl
      | file bytes =>
        simp only [hentry]
        cases FilePath.endsInSlash path <;> rfl

/-- A path to another place names what it named. -/
theorem find_put (h : t.IsClosed names) (bytes : ByteArray) {path : String}
    (hpath : t.place path ≠ .ok (.inside names)) :
    ((t.put names (.file bytes)).find path).toOption = (t.find path).toOption := by
  rw [toOption_find, toOption_find, place_put h]
  cases hplace : t.place path with
  | error e => rfl
  | ok here =>
    have hhere : here ≠ .inside names := by
      intro hsame
      exact hpath (by rw [hplace, hsame])
    show entryFor? _ path here = t.entryFor? path here
    rw [entryFor?, entryFor?, entryAt?_put_of_ne t _ hhere]

end

/-! ## Writes -/

variable {t : FileTree} {path : String}

/-- Where a file can be written: a place that is not a directory, named without a slash behind it. -/
theorem writable_eq_ok {names : List String} (h : t.writable path = .ok names) :
    t.place path = .ok (.inside names) ∧ FilePath.endsInSlash path = false ∧ t.IsClosed names := by
  unfold writable at h
  cases hplace : t.place path with
  | error e => rw [hplace] at h; exact absurd h (by simp)
  | ok here =>
    rw [hplace] at h
    cases here with
    | outside => exact absurd h (by simp)
    | inside others =>
      dsimp only at h
      by_cases hrefused : (FilePath.endsInSlash path ||
          (t.entryAt? (.inside others)).any (·.isDirectory)) = true
      · rw [if_pos hrefused] at h
        exact absurd h (by simp)
      · rw [if_neg hrefused] at h
        obtain rfl := Except.ok.inj h
        obtain ⟨hslash, hentry⟩ := Bool.or_eq_false_iff.1 (Bool.not_eq_true _ ▸ hrefused)
        refine ⟨rfl, hslash, ?_⟩
        intro hdirectory
        rw [hdirectory] at hentry
        exact absurd hentry (by simp [FileEntry.isDirectory])

/-- Writing as an operation on the state. -/
theorem write_apply (t : FileTree) (path : String) (bytes : ByteArray) :
    (FileStore.write path bytes : StateM FileTree (Except FileError Unit)) t
      = match t.write path bytes with
        | .error cause => (.error cause, t)
        | .ok after => (.ok (), after) := by
  show update _ t = _
  unfold update
  dsimp only
  cases t.write path bytes <;> rfl

theorem writable_of_write_eq_error {bytes : ByteArray} {cause : FileError}
    (h : t.write path bytes = .error cause) : t.writable path = .error cause := by
  unfold write at h
  cases hnames : t.writable path with
  | error e => rw [hnames] at h; rw [Except.error.inj h]
  | ok names => rw [hnames] at h; exact absurd h (by simp)

/-- A write that succeeds changes one place only. -/
theorem isWritten_of_write {bytes : ByteArray} {after : FileTree}
    (h : t.write path bytes = .ok after) : t.IsWritten path bytes after := by
  unfold write at h
  cases hnames : t.writable path with
  | error e => rw [hnames] at h; exact absurd h (by simp)
  | ok names =>
    rw [hnames] at h
    obtain rfl := Except.ok.inj h
    obtain ⟨hplace, hslash, hclosed⟩ := writable_eq_ok hnames
    refine ⟨?_, ⟨names, hplace, fun here hhere => entryAt?_put_of_ne t _ hhere⟩, ?_⟩
    · have hfind : ((t.put names (.file bytes)).find path).toOption = some (.file bytes) := by
        rw [toOption_find, place_put hclosed, hplace]
        show entryFor? _ path (.inside names) = _
        rw [entryFor?, entryAt?_put_self t _ hclosed.ne_nil]
        simp [Option.filter, hslash]
      unfold read
      cases hresult : (t.put names (.file bytes)).find path with
      | error e => rw [hresult] at hfind; exact absurd hfind (by simp [Except.toOption])
      | ok entry =>
        rw [hresult] at hfind
        obtain rfl : entry = .file bytes := Option.some.inj hfind
        rfl
    · intro other hother
      exact find_put hclosed bytes (hplace ▸ hother)

end IdlBind.FileTree
