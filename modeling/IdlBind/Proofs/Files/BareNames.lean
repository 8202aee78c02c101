import IdlBind.Files.Tree
import Mathlib.Data.List.Basic

set_option autoImplicit false

/-! # Names without a directory part

A name without slashes and the same name behind `./` name the same entry of every tree
(`find_dotted`). As texts they differ: the first has an empty directory part, the second the
directory `.` (`parent?_bare`, `parent?_dotted`). -/

namespace IdlBind

/-- A name without a directory part. -/
structure IsBareName (name : String) : Prop where
  ne_empty : name ≠ ""
  no_slash : '/' ∉ name.toList

/-- The same name seen from the directory `.`. -/
def dotted (name : String) : String := "./" ++ name

variable {name : String}

theorem toList_dotted (name : String) : (dotted name).toList = '.' :: '/' :: name.toList := by
  rw [dotted, String.toList_append]
  rfl

theorem IsBareName.exists_cons (h : IsBareName name) :
    ∃ c rest, name.toList = c :: rest ∧ c ≠ '/' ∧ '/' ∉ rest := by
  cases hname : name.toList with
  | nil => exact absurd (String.toList_eq_nil_iff.1 hname) h.ne_empty
  | cons c rest =>
    have hslash := h.no_slash
    rw [hname, List.mem_cons, not_or] at hslash
    exact ⟨c, rest, rfl, Ne.symm hslash.1, hslash.2⟩

namespace FilePath

/-! ## Directory parts -/

/-- A text without a slash has nothing to trim at its end. -/
theorem trimReversed_of_no_slash {path : List Char} (h : '/' ∉ path) :
    trimReversed path = path := by
  unfold trimReversed
  split
  · exact absurd List.mem_cons_self h
  · exact absurd List.mem_cons_self h
  · exact absurd (List.mem_cons_of_mem _ List.mem_cons_self) h
  · rfl

/-- In front of the last slash stands the last component. -/
theorem dropWhile_of_no_slash {last : List Char} (h : '/' ∉ last) (rest : List Char) :
    (last ++ rest).dropWhile (· ≠ '/') = rest.dropWhile (· ≠ '/') := by
  refine List.dropWhile_append_of_pos fun c hc => ?_
  have hne : c ≠ '/' := fun heq => h (heq ▸ hc)
  simpa using hne

theorem parent?_bare (h : IsBareName name) : parent? name = some "" := by
  have hslash : '/' ∉ name.toList.reverse := by
    rw [List.mem_reverse]
    exact h.no_slash
  have hdrop := dropWhile_of_no_slash hslash []
  rw [List.append_nil] at hdrop
  unfold parent? split?
  rw [trimReversed_of_no_slash hslash]
  split
  · rename_i hnil
    exact absurd (List.reverse_eq_nil_iff.1 hnil)
      (by simpa [String.toList_eq_nil_iff] using h.ne_empty)
  · rename_i hroot
    exact absurd (hroot ▸ List.mem_singleton_self _) hslash
  · rw [hdrop]
    rfl

/-- Only the name `.` would be taken for a component that counts for nothing. -/
theorem trimReversed_dotted (h : IsBareName name) (hdot : name ≠ ".") :
    trimReversed (dotted name).toList.reverse = name.toList.reverse ++ ['/', '.'] := by
  have hslash : '/' ∉ name.toList.reverse := by
    rw [List.mem_reverse]
    exact h.no_slash
  have hreverse : (dotted name).toList.reverse = name.toList.reverse ++ ['/', '.'] := by
    rw [toList_dotted]
    simp
  rw [hreverse]
  cases hname : name.toList.reverse with
  | nil =>
    have hnil := List.reverse_eq_nil_iff.1 hname
    exact absurd (String.toList_eq_nil_iff.1 hnil) h.ne_empty
  | cons c rest =>
    rw [hname, List.mem_cons, not_or] at hslash
    unfold trimReversed
    split
    · rename_i heq
      exact absurd (List.cons.inj heq).1.symm hslash.1
    · rename_i heq
      exact absurd (List.cons.inj heq).1.symm hslash.1
    · rename_i heq
      obtain ⟨rfl, hrest⟩ := List.cons.inj heq
      cases rest with
      | nil =>
        have hlist : name.toList = ['.'] := by
          rw [← List.reverse_inj, hname]
          rfl
        exact absurd (String.toList_inj.1 hlist) hdot
      | cons d rest =>
        exact absurd (List.cons.inj hrest).1.symm fun hd => hslash.2 (hd ▸ List.mem_cons_self)
    · rfl

theorem parent?_dotted (h : IsBareName name) (hdot : name ≠ ".") :
    parent? (dotted name) = some "." := by
  have hslash : '/' ∉ name.toList.reverse := by
    rw [List.mem_reverse]
    exact h.no_slash
  have hdrop := dropWhile_of_no_slash hslash ['/', '.']
  unfold parent? split?
  rw [trimReversed_dotted h hdot]
  split
  · rename_i hnil
    exact absurd hnil (by simp)
  · rename_i hroot
    exact absurd (congrArg List.length hroot) (by simp)
  · rw [hdrop]
    rfl

/-! ## Components -/

theorem splitSlashes_of_no_slash {path : List Char} (h : '/' ∉ path) :
    splitSlashes path = [path] := by
  induction path with
  | nil => rfl
  | cons c rest ih =>
    rw [List.mem_cons, not_or] at h
    unfold splitSlashes
    split
    · rename_i heq
      exact absurd heq (by simp)
    · rename_i heq
      exact absurd (List.cons.inj heq).1.symm h.1
    · rename_i heq
      obtain ⟨rfl, rfl⟩ := List.cons.inj heq
      rw [ih h.2]

theorem components_bare (h : IsBareName name) : components name = [name] := by
  unfold components
  rw [splitSlashes_of_no_slash h.no_slash, List.filter_cons_of_pos]
  · simp
  · simpa [String.toList_eq_nil_iff] using h.ne_empty

theorem components_dotted (h : IsBareName name) : components (dotted name) = [".", name] := by
  have hsplit : splitSlashes (dotted name).toList = ['.'] :: splitSlashes name.toList := by
    rw [toList_dotted]
    rfl
  have hbare := components_bare h
  unfold components at hbare ⊢
  rw [hsplit, List.filter_cons_of_pos (by simp), List.map_cons, hbare]

end FilePath

/-! ## Entries -/

namespace FileTree

theorem step_root (t : FileTree) (component : String) :
    t.step (.inside []) component
      = if component = "." then .ok (.inside [])
        else if component = ".." then .ok .outside
        else if component.utf8ByteSize > nameLimit then .error .nameTooLong
        else .ok (.inside [component]) := rfl

/-- A name that is too long for a path is too long for a component already. -/
theorem step_root_of_long {t : FileTree} {component : String}
    (h : component.utf8ByteSize > nameLimit) :
    t.step (.inside []) component = .error .nameTooLong := by
  have hdot : component ≠ "." := by
    rintro rfl
    exact absurd h (by decide)
  have hdots : component ≠ ".." := by
    rintro rfl
    exact absurd h (by decide)
  rw [step_root, if_neg hdot, if_neg hdots, if_pos h]

/-- Behind `./` a name leads to the same place. -/
theorem place_dotted (h : IsBareName name) (t : FileTree) :
    t.place (dotted name) = t.place name := by
  obtain ⟨c, rest, hname, hslash, -⟩ := h.exists_cons
  have hnul : (dotted name).toList.contains '\x00' = name.toList.contains '\x00' := by
    rw [toList_dotted]
    rfl
  have hempty : name.isEmpty = false := by simpa using h.ne_empty
  have hempty' : (dotted name).isEmpty = false := by simp [dotted]
  have hroot : FilePath.isAbsolute name = false := by
    simp [FilePath.isAbsolute, hname, hslash]
  have hroot' : FilePath.isAbsolute (dotted name) = false := by
    simp [FilePath.isAbsolute, toList_dotted]
  have hsize : (dotted name).utf8ByteSize = name.utf8ByteSize + 2 := by
    rw [dotted, String.utf8ByteSize_append, Nat.add_comm]
    rfl
  have hwalk : t.walk (.inside []) [".", name] = t.walk (.inside []) [name] := by
    rw [walk, step_root, if_pos rfl]
  unfold place
  simp only [hnul, hempty, hempty', hroot, hroot', FilePath.components_bare h,
    FilePath.components_dotted h, hwalk, hsize, Bool.false_eq_true, if_false]
  refine if_congr Iff.rfl rfl ?_
  by_cases hlong : name.utf8ByteSize > pathLimit
  · rw [if_pos hlong, if_pos (by omega)]
  by_cases hlong' : name.utf8ByteSize + 2 > pathLimit
  · have hcomponent : name.utf8ByteSize > nameLimit := by
      unfold pathLimit at hlong'
      unfold nameLimit
      omega
    rw [if_pos hlong', if_neg hlong, walk, step_root_of_long hcomponent]
  · rw [if_neg hlong', if_neg hlong]

theorem find_dotted (h : IsBareName name) (t : FileTree) :
    t.find (dotted name) = t.find name := by
  obtain ⟨c, rest, hname, -, -⟩ := h.exists_cons
  have hslash : FilePath.endsInSlash (dotted name) = FilePath.endsInSlash name := by
    unfold FilePath.endsInSlash
    rw [toList_dotted, hname, List.getLast?_cons_cons, List.getLast?_cons_cons]
  unfold find
  rw [place_dotted h, hslash]

end FileTree

end IdlBind
