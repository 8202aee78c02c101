set_option autoImplicit false

/-! # Paths as text

A path is a text whose components are separated by slashes. Paths are joined and taken apart as
text; nothing looks at the files that they name. -/

namespace IdlBind.FilePath

/-- Does the path start at the root? -/
def isAbsolute (path : String) : Bool := path.toList.head? = some '/'

/-- Does the path end in a slash? -/
def endsInSlash (path : String) : Bool := path.toList.getLast? = some '/'

/-- The path of `relative` seen from a directory: an absolute path stays as it is, else a slash is
    put between the two unless the directory is empty or ends in one. -/
def join (dir relative : String) : String :=
  if isAbsolute relative then relative
  else if dir.isEmpty || endsInSlash dir then dir ++ relative
  else dir ++ "/" ++ relative

/-! ## Components -/

/-- The pieces of a path between its slashes, empty ones included. -/
def splitSlashes : List Char → List (List Char)
  | [] => [[]]
  | '/' :: rest => [] :: splitSlashes rest
  | c :: rest =>
    match splitSlashes rest with
    | [] => [[c]]
    | piece :: pieces => (c :: piece) :: pieces

/-- The components of a path, without the empty ones. -/
def components (path : String) : List String :=
  ((splitSlashes path.toList).filter (· ≠ [])).map String.ofList

/-! ## The last component

Slashes at the end, and components `.` behind the first, count for nothing. -/

/-- The reversed path without slashes and `.` components at its end. A `.` that is the whole path
    stays. -/
def trimReversed : List Char → List Char
  | ['/'] => ['/']
  | '/' :: rest => trimReversed rest
  | '.' :: '/' :: rest => trimReversed ('/' :: rest)
  | path => path

theorem length_trimReversed (path : List Char) : (trimReversed path).length ≤ path.length := by
  fun_induction trimReversed path with
  | case1 => exact Nat.le_refl _
  | case2 rest _ ih => exact Nat.le_succ_of_le ih
  | case3 rest ih => exact Nat.le_succ_of_le ih
  | case4 path _ _ _ => exact Nat.le_refl _

/-- Only the root ends in a slash once it is trimmed. -/
theorem eq_nil_of_trimReversed_eq_slash {path rest : List Char}
    (h : trimReversed path = '/' :: rest) : rest = [] := by
  fun_induction trimReversed path with
  | case1 => exact (List.cons.inj h).2.symm
  | case2 _ _ ih => exact ih h
  | case3 _ ih => exact ih h
  | case4 path root slash _ =>
    cases rest with
    | nil => rfl
    | cons c rest => exact absurd h (slash (c :: rest))

/-- The last component of a path, and the path in front of it as text; `none` for the empty path and
    the root. -/
def split? (path : String) : Option (String × String) :=
  match trimReversed path.toList.reverse with
  | [] => none
  | ['/'] => none
  | trimmed =>
    let last := trimmed.takeWhile (· ≠ '/')
    some (String.ofList (trimReversed (trimmed.dropWhile (· ≠ '/'))).reverse,
      String.ofList last.reverse)

/-- The directory of a path: everything in front of the last component. -/
def parent? (path : String) : Option String := (split? path).map (·.1)

/-- The directory of a path is written shorter than the path. -/
theorem length_parent? {path parent : String} (h : parent? path = some parent) :
    parent.length < path.length := by
  have trimmed_le := length_trimReversed path.toList.reverse
  simp only [parent?, split?] at h
  split at h
  · simp at h
  · simp at h
  · rename_i empty root
    simp only [Option.map_some, Option.some.injEq] at h
    subst h
    have dir_le := length_trimReversed
      ((trimReversed path.toList.reverse).dropWhile (· ≠ '/'))
    match trimmed : trimReversed path.toList.reverse with
    | [] => exact absurd trimmed empty
    | c :: rest =>
      have plain : c ≠ '/' := by
        rintro rfl
        exact root (by rw [trimmed, eq_nil_of_trimReversed_eq_slash trimmed])
      have shorter := (List.dropWhile_suffix (l := rest) (· ≠ '/')).length_le
      rw [trimmed] at dir_le trimmed_le
      simp [plain, String.length_toList] at dir_le trimmed_le shorter ⊢
      omega

/-- The last component of a path, unless that is `..` or the whole path is `.`. -/
def fileName? (path : String) : Option String :=
  match split? path with
  | some (_, "..") => none
  | some ("", ".") => none
  | some (_, name) => some name
  | none => none

/-- What follows the last point of the file name, if anything stands in front of that point. -/
def extension? (path : String) : Option String := do
  let name ← fileName? path
  let reversed := name.toList.reverse
  let after := reversed.takeWhile (· ≠ '.')
  let before := (reversed.dropWhile (· ≠ '.')).tail
  if before.isEmpty then none else some (String.ofList after.reverse)

end IdlBind.FilePath
