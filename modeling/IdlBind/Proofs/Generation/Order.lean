import IdlBind.Proofs.Generation.Sections

set_option autoImplicit false

/-! # Sections in their order

What a run over any backend comes to that has a sink which takes everything: the sections are
emitted in the order of the file up to and including the first that fails, which ends the run with
its own failure, and the report counts the bytes of each (`emitAll_in_order`). -/

namespace IdlBind

variable {b : Backend} {d : Descriptor}

/-! ## Notices -/

/-- The notices of some sections, one behind the other. -/
def sectionsNotices (b : Backend) (d : Descriptor) (sections : List Section) : List String :=
  sections.flatMap fun s => (b.emit s d).notices

theorem notices_emitSections_of_completes {sections : List Section}
    (h : ∀ s ∈ sections, (b.emit s d).failure? = none) (held : ByteArray) :
    (emitSections .unlimited b d held sections).notices = sectionsNotices b d sections := by
  induction sections generalizing held with
  | nil => rfl
  | cons s rest ih =>
    have hs := h s (List.mem_cons_self ..)
    have hrest := ih (fun t ht => h t (List.mem_cons_of_mem _ ht))
      (held ++ (b.emit s d).text.toUTF8)
    rw [emitSections_cons_of_completes hs]
    show (b.emit s d).notices ++ (emitSections .unlimited b d _ rest).notices = _
    rw [hrest, sectionsNotices, sectionsNotices, List.flatMap_cons]

theorem notices_emitSections_of_failure {before : List Section} {s : Section} {cause : EmitError}
    (hbefore : ∀ t ∈ before, (b.emit t d).failure? = none)
    (hs : (b.emit s d).failure? = some cause) (after : List Section) (held : ByteArray) :
    (emitSections .unlimited b d held (before ++ s :: after)).notices
      = sectionsNotices b d (before ++ [s]) := by
  induction before generalizing held with
  | nil => simp [emitSections, emitSection_unlimited, hs, sectionsNotices]
  | cons t rest ih =>
    have ht := hbefore t (List.mem_cons_self ..)
    have hrest := ih (fun u hu => hbefore u (List.mem_cons_of_mem _ hu))
      (held ++ (b.emit t d).text.toUTF8)
    rw [List.cons_append, emitSections_cons_of_completes ht]
    show (b.emit t d).notices ++ (emitSections .unlimited b d _ (rest ++ s :: after)).notices = _
    rw [hrest, sectionsNotices, sectionsNotices, List.cons_append, List.flatMap_cons]

/-! ## What other backends emit -/

theorem sectionsText_congr {other : Backend} {sections : List Section}
    (h : ∀ t ∈ sections, other.emit t d = b.emit t d) :
    sectionsText other d sections = sectionsText b d sections := by
  unfold sectionsText
  rw [List.map_congr_left fun t ht => congrArg Emission.text (h t ht)]

theorem sectionsNotices_congr {other : Backend} {sections : List Section}
    (h : ∀ t ∈ sections, other.emit t d = b.emit t d) :
    sectionsNotices other d sections = sectionsNotices b d sections := by
  unfold sectionsNotices
  rw [List.flatMap_def, List.flatMap_def,
    List.map_congr_left fun t ht => congrArg Emission.notices (h t ht)]

/-! ## Whole runs -/

/-- Either all sections complete, or there is a first that does not. -/
theorem completes_or_exists_first_failure (b : Backend) (d : Descriptor) (sections : List Section) :
    (∀ s ∈ sections, (b.emit s d).failure? = none) ∨
      ∃ before s after cause, sections = before ++ s :: after ∧
        (∀ t ∈ before, (b.emit t d).failure? = none) ∧ (b.emit s d).failure? = some cause := by
  induction sections with
  | nil => exact Or.inl (by simp)
  | cons t rest ih =>
    cases ht : (b.emit t d).failure? with
    | some cause => exact Or.inr ⟨[], t, rest, cause, rfl, by simp, ht⟩
    | none =>
      rcases ih with hall | ⟨before, s, after, cause, rfl, hbefore, hs⟩
      · exact Or.inl (List.forall_mem_cons.2 ⟨ht, hall⟩)
      · exact Or.inr ⟨t :: before, s, after, cause, rfl, List.forall_mem_cons.2 ⟨ht, hbefore⟩, hs⟩

/-- The byte counts of completed sections add up to the size of their text. -/
theorem bytes_eq_size_sectionsText (backend interface : String) (sections : List Section) :
    Report.bytes ⟨backend, interface, sections.map fun s => (s, (b.emit s d).text.toUTF8.size)⟩
      = (sectionsText b d sections).toUTF8.size := by
  induction sections with
  | nil => rfl
  | cons s rest ih =>
    have htext : sectionsText b d (s :: rest) = (b.emit s d).text ++ sectionsText b d rest := by
      simp [sectionsText]
    rw [htext, String.toUTF8_eq_toByteArray, String.toByteArray_append, ByteArray.size_append,
      ← String.toUTF8_eq_toByteArray, ← String.toUTF8_eq_toByteArray, ← ih]
    rfl

theorem emitAll_of_completes (h : ∀ s ∈ Section.all, (b.emit s d).failure? = none) :
    emitAll .unlimited b d
      = ⟨(sectionsText b d Section.all).toUTF8, sectionsNotices b d Section.all,
          .ok ⟨b.name, d.interface,
            Section.all.map fun s => (s, (b.emit s d).text.toUTF8.size)⟩⟩ := by
  obtain ⟨houtput, hresult⟩ := emitSections_of_completes h .empty
  unfold emitAll
  simp only [houtput, hresult, notices_emitSections_of_completes h, ByteArray.empty_append]
  rfl

theorem emitAll_of_failure {before after : List Section} {s : Section} {cause : EmitError}
    (hall : Section.all = before ++ s :: after)
    (hbefore : ∀ t ∈ before, (b.emit t d).failure? = none)
    (hs : (b.emit s d).failure? = some cause) :
    emitAll .unlimited b d
      = ⟨(sectionsText b d (before ++ [s])).toUTF8, sectionsNotices b d (before ++ [s]),
          .error (.emit s cause)⟩ := by
  obtain ⟨houtput, hresult⟩ := emitSections_of_failure hbefore hs after .empty
  unfold emitAll
  simp only [hall, houtput, hresult, notices_emitSections_of_failure hbefore hs,
    ByteArray.empty_append]
  rfl

end IdlBind
