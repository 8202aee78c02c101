import IdlBind.Backend.Catalogue
import IdlBind.Generation

set_option autoImplicit false

/-! # Sections into a sink that takes everything

An emission completes if it has no failure. Sections that complete are written one behind the other
(`emitSections_of_completes`); the first that does not ends the output with what it has written
(`emitSections_of_failure`). -/

namespace IdlBind

/-! ## Emissions -/

namespace Emission

theorem failure?_append (a b : Emission) : (a ++ b).failure? = a.failure?.or b.failure? := by
  show (append a b).failure? = _
  unfold append
  cases h : a.failure? <;> simp [h]

theorem failure?_concat {list : List Emission} (h : ∀ e ∈ list, e.failure? = none) :
    (concat list).failure? = none := by
  induction list with
  | nil => rfl
  | cons e rest ih =>
    have he := h e (List.mem_cons_self ..)
    have hrest := ih fun f hf => h f (List.mem_cons_of_mem _ hf)
    show (e ++ concat rest).failure? = none
    rw [failure?_append, he, hrest]
    rfl

@[simp] theorem failure?_ofText (text : String) : (ofText text).failure? = none := rfl

@[simp] theorem failure?_ofExcept_ok {α : Type} (a : α) (emit : α → Emission) :
    (ofExcept (.ok a) emit).failure? = (emit a).failure? := rfl

end Emission

/-! ## Runs over sections -/

/-- The texts of some sections, one behind the other. -/
def sectionsText (b : Backend) (d : Descriptor) (sections : List Section) : String :=
  String.join (sections.map fun s => (b.emit s d).text)

variable {b : Backend} {d : Descriptor}

theorem emitSection_unlimited (held : ByteArray) (s : Section) (e : Emission) :
    emitSection .unlimited held s e
      = ⟨held ++ e.text.toUTF8, e.notices,
          match e.failure? with
          | none => .ok e.text.toUTF8.size
          | some cause => .error (.emit s cause)⟩ := by
  simp only [emitSection, Sink.write, Sink.unlimited]
  cases e.failure? <;> rfl

/-- A section that completes is written, and the run goes on behind it. -/
theorem emitSections_cons_of_completes {s : Section} (hs : (b.emit s d).failure? = none)
    (held : ByteArray) (rest : List Section) :
    let more := emitSections .unlimited b d (held ++ (b.emit s d).text.toUTF8) rest
    emitSections .unlimited b d held (s :: rest)
      = ⟨more.output, (b.emit s d).notices ++ more.notices,
          more.result.map ((s, (b.emit s d).text.toUTF8.size) :: ·)⟩ := by
  simp only [emitSections, emitSection_unlimited, hs]

theorem emitSections_of_completes {sections : List Section}
    (h : ∀ s ∈ sections, (b.emit s d).failure? = none) (held : ByteArray) :
    (emitSections .unlimited b d held sections).output
        = held ++ (sectionsText b d sections).toUTF8 ∧
      (emitSections .unlimited b d held sections).result
        = .ok (sections.map fun s => (s, (b.emit s d).text.toUTF8.size)) := by
  induction sections generalizing held with
  | nil => simp [emitSections, sectionsText]
  | cons s rest ih =>
    have hs := h s (List.mem_cons_self ..)
    obtain ⟨houtput, hresult⟩ := ih (fun t ht => h t (List.mem_cons_of_mem _ ht))
      (held ++ (b.emit s d).text.toUTF8)
    rw [emitSections_cons_of_completes hs, houtput, hresult]
    refine ⟨?_, rfl⟩
    simp [sectionsText, String.toByteArray_append, ByteArray.append_assoc]

theorem emitSections_of_failure {before : List Section} {s : Section} {cause : EmitError}
    (hbefore : ∀ t ∈ before, (b.emit t d).failure? = none)
    (hs : (b.emit s d).failure? = some cause) (after : List Section) (held : ByteArray) :
    (emitSections .unlimited b d held (before ++ s :: after)).output
        = held ++ (sectionsText b d (before ++ [s])).toUTF8 ∧
      (emitSections .unlimited b d held (before ++ s :: after)).result
        = .error (.emit s cause) := by
  induction before generalizing held with
  | nil => simp [emitSections, emitSection_unlimited, hs, sectionsText]
  | cons t rest ih =>
    have ht := hbefore t (List.mem_cons_self ..)
    obtain ⟨houtput, hresult⟩ := ih (fun u hu => hbefore u (List.mem_cons_of_mem _ hu))
      (held ++ (b.emit t d).text.toUTF8)
    rw [List.cons_append, emitSections_cons_of_completes ht, houtput, hresult]
    refine ⟨?_, rfl⟩
    simp [sectionsText, String.toByteArray_append, ByteArray.append_assoc]

end IdlBind
