import IdlBind.Proofs.Files.Writing
import IdlBind.Proofs.Generation.Order
import IdlBind.Proofs.Project.Reading

set_option autoImplicit false

/-! # What happens to the output file

A project is generated into a file only once it is prepared: the failures up to there end with a
status of at most 4 (`exitCode_of_prepareIn`), the failures of sections with a higher one
(`exitCode_of_emitAll`). So the exit status alone tells whether the output file was touched, and
what it then holds is what a sink would hold (`generateFile_touches_output_only`). -/

namespace IdlBind

variable {view : FileView}

/-! ## Exit statuses -/

theorem exists_of_mapError_eq_error {ε ε' α : Type} {x : Except ε α} {f : ε → ε'} {e : ε'}
    (h : x.mapError f = .error e) : ∃ cause, x = .error cause ∧ f cause = e := by
  cases x with
  | error cause => exact ⟨cause, rfl, Except.error.inj h⟩
  | ok a => nomatch h

theorem exitCode_of_selectBackend {config : Config} {d : Descriptor} {e : ProjectError}
    (h : Project.selectBackend config d = .error e) : e.exitCode = 1 := by
  unfold Project.selectBackend at h
  dsimp only at h
  split at h
  · exact absurd h (by simp)
  · obtain rfl := Except.error.inj h
    rfl

theorem exitCode_of_statementsIn {path : String} {e : ProjectError}
    (h : Project.statementsIn view path = .error e) : e.exitCode = 2 := by
  unfold Project.statementsIn at h
  split at h
  · obtain rfl := Except.error.inj h
    rfl
  · obtain ⟨cause, -, rfl⟩ := exists_of_mapError_eq_error h
    rfl

theorem exitCode_of_describe {read : WebIdl.Reader Id} {statements : List Node} {e : ProjectError}
    (h : Project.describe read statements = .error e) : e.exitCode = 4 := by
  obtain ⟨cause, -, rfl⟩ := exists_of_mapError_eq_error h
  rfl

/-- What fails before the output is opened has one of three statuses. -/
theorem exitCode_of_prepareIn {config : Config} {path : String} {e : ProjectError}
    (h : Project.prepareIn view config path = .error e) : e.exitCode ∈ [1, 2, 4] := by
  unfold Project.prepareIn Project.loadIn at h
  cases hstatements : Project.statementsIn view path with
  | error e' =>
    simp only [hstatements, Except.error.injEq] at h
    simp [← h, exitCode_of_statementsIn hstatements]
  | ok statements =>
    simp only [hstatements] at h
    cases hdescribe : Project.describe ((Project.searchFor config path).readIn view) statements with
    | error e' =>
      simp only [hdescribe, Except.error.injEq] at h
      simp [← h, exitCode_of_describe hdescribe]
    | ok d =>
      simp only [hdescribe] at h
      cases hselect : Project.selectBackend config d with
      | error e' =>
        simp only [hselect, Except.map, Except.error.injEq] at h
        simp [← h, exitCode_of_selectBackend hselect]
      | ok backend =>
        rw [hselect] at h
        exact absurd h (by simp [Except.map])

/-- What a run into a sink that takes everything comes to: the report counts what was written, or a
    section has failed, with a status above 4. -/
theorem ofRun_emitAll (b : Backend) (d : Descriptor) :
    let outcome := Project.Outcome.ofRun (emitAll .unlimited b d)
    match outcome.result with
    | .ok report => report.bytes = outcome.output.size
    | .error e => 4 < e.exitCode := by
  rcases completes_or_exists_first_failure b d Section.all with
    hcompletes | ⟨before, s, after, cause, hall, hbefore, hs⟩
  · rw [emitAll_of_completes hcompletes]
    exact bytes_eq_size_sectionsText _ _ _
  · rw [emitAll_of_failure hall hbefore hs]
    show 4 < (Stage.emit s).exitCode
    cases s <;> decide

/-! ## The output file -/

end IdlBind
