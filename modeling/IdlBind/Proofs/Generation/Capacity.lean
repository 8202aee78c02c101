import IdlBind.Proofs.Generation.Sections

set_option autoImplicit false

/-! # Runs into a sink with a limit

A sink that takes only so many bytes holds the first bytes of what a sink without a limit holds. If
it is too small, the run fails in the section that wrote the first byte too many, which is seen from
how much the run without a limit had written behind each section (`emitAll_limited`). -/

namespace IdlBind

/-! ## The first bytes -/

theorem extract_of_size_le {bytes : ByteArray} {n : Nat} (h : bytes.size ≤ n) :
    bytes.extract 0 n = bytes := by
  rw [← Nat.max_eq_left h, ByteArray.extract_zero_max_size]

theorem extract_append_of_le {first : ByteArray} (more : ByteArray) {n : Nat}
    (h : n ≤ first.size) : (first ++ more).extract 0 n = first.extract 0 n := by
  rw [ByteArray.extract_append, Nat.zero_sub, Nat.sub_eq_zero_of_le h, ByteArray.extract_same,
    ByteArray.append_empty]

/-! ## Writing into a sink with a limit -/

namespace Sink

/-- A sink that takes only so many bytes. -/
def limited (capacity : Nat) : Sink := ⟨some capacity, false⟩

variable {capacity : Nat} {held : ByteArray}

/-- A sink with a limit holds the first bytes of what is written, and takes all that it has room
    for. -/
theorem write_limited (hheld : held.size ≤ capacity) (written : ByteArray) :
    (limited capacity).write held written
      = ((held ++ written).extract 0 capacity, decide ((held ++ written).size ≤ capacity)) := by
  simp only [write, limited, ByteArray.size_append]
  by_cases hfits : held.size + written.size ≤ capacity
  · rw [if_pos hfits, decide_eq_true hfits, extract_of_size_le (by rwa [ByteArray.size_append])]
  · rw [if_neg hfits, decide_eq_false hfits, ByteArray.extract_append, extract_of_size_le hheld,
      Nat.zero_sub]

/-- Writes pieces one after the other, up to the first that is not taken in full. -/
def writeEach (sink : Sink) (held : ByteArray) : List ByteArray → ByteArray × Bool
  | [] => (held, true)
  | piece :: rest =>
    match sink.write held piece with
    | (output, true) => writeEach sink output rest
    | (output, false) => (output, false)

/-- Several pieces as one. -/
def joined (pieces : List ByteArray) : ByteArray := pieces.foldr (· ++ ·) .empty

/-- It makes no difference in which pieces something is written. -/
theorem writeEach_limited (hheld : held.size ≤ capacity) (pieces : List ByteArray) :
    (limited capacity).writeEach held pieces = (limited capacity).write held (joined pieces) := by
  induction pieces generalizing held with
  | nil =>
    rw [joined, List.foldr_nil, write_limited hheld, ByteArray.append_empty,
      extract_of_size_le hheld, decide_eq_true hheld]
    rfl
  | cons piece rest ih =>
    have hjoined : held ++ joined (piece :: rest) = held ++ piece ++ joined rest :=
      (ByteArray.append_assoc ..).symm
    rw [writeEach, write_limited hheld, write_limited hheld, hjoined]
    by_cases hfits : (held ++ piece).size ≤ capacity
    · rw [decide_eq_true hfits, extract_of_size_le hfits]
      show writeEach (limited capacity) (held ++ piece) rest = _
      rw [ih hfits, write_limited hfits]
    · have hmore : ¬(held ++ piece ++ joined rest).size ≤ capacity := by
        rw [ByteArray.size_append]
        omega
      rw [decide_eq_false hfits, decide_eq_false hmore,
        extract_append_of_le (joined rest) (by omega)]

end Sink

/-! ## Runs over sections -/

variable {b : Backend} {d : Descriptor}

/-- What a run has written stays in front of what it writes. -/
theorem exists_output_eq_append (held : ByteArray) (sections : List Section) :
    ∃ more, (emitSections .unlimited b d held sections).output = held ++ more := by
  induction sections generalizing held with
  | nil => exact ⟨.empty, ByteArray.append_empty.symm⟩
  | cons s rest ih =>
    obtain ⟨more, hmore⟩ := ih (held ++ (b.emit s d).text.toUTF8)
    rw [ByteArray.append_assoc] at hmore
    cases hs : (b.emit s d).failure? with
    | none => exact ⟨_, by rw [emitSections_cons_of_completes hs, hmore]⟩
    | some cause =>
      refine ⟨(b.emit s d).text.toUTF8, ?_⟩
      simp only [emitSections, emitSection_unlimited, hs]

/-- What a section writes stays in front of what the sections behind it write. -/
theorem exists_output_cons (held : ByteArray) (s : Section) (rest : List Section) :
    ∃ more, (emitSections .unlimited b d held (s :: rest)).output
      = held ++ (b.emit s d).text.toUTF8 ++ more := by
  cases hs : (b.emit s d).failure? with
  | none =>
    obtain ⟨more, hmore⟩ := exists_output_eq_append (held ++ (b.emit s d).text.toUTF8) rest
    exact ⟨more, by rw [emitSections_cons_of_completes hs, hmore]⟩
  | some cause =>
    refine ⟨.empty, ?_⟩
    simp only [emitSections, emitSection_unlimited, hs, ByteArray.append_empty]

/-- How much a run without a limit has written when it has come to the end of some sections or has
    failed in one of them. -/
def writtenBytes (b : Backend) (d : Descriptor) (held : ByteArray) (sections : List Section) :
    Nat :=
  (emitSections .unlimited b d held sections).output.size

theorem size_le_writtenBytes (held : ByteArray) (sections : List Section) :
    held.size ≤ writtenBytes b d held sections := by
  obtain ⟨more, hmore⟩ := exists_output_eq_append (b := b) (d := d) held sections
  rw [writtenBytes, hmore, ByteArray.size_append]
  omega

theorem size_le_writtenBytes_cons (held : ByteArray) (s : Section) (rest : List Section) :
    (held ++ (b.emit s d).text.toUTF8).size ≤ writtenBytes b d held (s :: rest) := by
  obtain ⟨more, hmore⟩ := exists_output_cons (b := b) (d := d) held s rest
  rw [writtenBytes, hmore, ByteArray.size_append (a := held ++ (b.emit s d).text.toUTF8)]
  omega

theorem writtenBytes_cons (held : ByteArray) (s : Section) (rest : List Section) :
    writtenBytes b d held (s :: rest)
      = match (b.emit s d).failure? with
        | none => writtenBytes b d (held ++ (b.emit s d).text.toUTF8) rest
        | some _ => held.size + (b.emit s d).text.toUTF8.size := by
  unfold writtenBytes
  cases hs : (b.emit s d).failure? with
  | none => rw [emitSections_cons_of_completes hs]
  | some cause => simp only [emitSections, emitSection_unlimited, hs, ByteArray.size_append]

/-- The counts grow from section to section. -/
theorem writtenBytes_mono (held : ByteArray) {earlier before : List Section}
    (h : earlier <+: before) : writtenBytes b d held earlier ≤ writtenBytes b d held before := by
  obtain ⟨rest, rfl⟩ := h
  induction earlier generalizing held with
  | nil => exact size_le_writtenBytes held rest
  | cons s earlier ih =>
    rw [List.cons_append, writtenBytes_cons, writtenBytes_cons]
    cases (b.emit s d).failure? with
    | none => exact ih _
    | some _ => exact Nat.le_refl _

/-- One section into a sink with a limit: what it comes to without a limit as long as that is
    enough, else its first bytes and a failure of the sink. -/
theorem emitSection_limited {capacity : Nat} {held : ByteArray} (hheld : held.size ≤ capacity)
    (s : Section) (e : Emission) :
    emitSection (.limited capacity) held s e
      = if (held ++ e.text.toUTF8).size ≤ capacity then emitSection .unlimited held s e
        else ⟨(held ++ e.text.toUTF8).extract 0 capacity, e.notices,
          .error (.emit s (.sink Sink.fullMessage))⟩ := by
  rw [emitSection_unlimited]
  simp only [emitSection, Sink.write_limited hheld]
  by_cases hfits : (held ++ e.text.toUTF8).size ≤ capacity
  · rw [if_pos hfits, decide_eq_true hfits, extract_of_size_le hfits]
    cases e.failure? <;> rfl
  · rw [if_neg hfits, decide_eq_false hfits]

/-- A section that completes within the limit is written, and the run goes on behind it. -/
theorem emitSections_limited_cons {capacity : Nat} {held : ByteArray} {s : Section}
    (hheld : held.size ≤ capacity) (hs : (b.emit s d).failure? = none)
    (hfits : (held ++ (b.emit s d).text.toUTF8).size ≤ capacity) (rest : List Section) :
    let more := emitSections (.limited capacity) b d (held ++ (b.emit s d).text.toUTF8) rest
    emitSections (.limited capacity) b d held (s :: rest)
      = ⟨more.output, (b.emit s d).notices ++ more.notices,
          more.result.map ((s, (b.emit s d).text.toUTF8.size) :: ·)⟩ := by
  simp only [emitSections, emitSection_limited hheld, if_pos hfits, emitSection_unlimited, hs]

/-- As long as the limit is enough it makes no difference. -/
theorem emitSections_limited_of_le {capacity : Nat} {sections : List Section} {held : ByteArray}
    (h : writtenBytes b d held sections ≤ capacity) :
    emitSections (.limited capacity) b d held sections
      = emitSections .unlimited b d held sections := by
  induction sections generalizing held with
  | nil => rfl
  | cons s rest ih =>
    have hheld := Nat.le_trans (size_le_writtenBytes held (s :: rest)) h
    rw [writtenBytes_cons] at h
    cases hs : (b.emit s d).failure? with
    | none =>
      rw [hs] at h
      have hfits := Nat.le_trans (size_le_writtenBytes _ rest) h
      rw [emitSections_limited_cons hheld hs hfits, emitSections_cons_of_completes hs, ih h]
    | some cause =>
      rw [hs, ← ByteArray.size_append] at h
      simp only [emitSections, emitSection_limited hheld, if_pos h, emitSection_unlimited, hs]

/-- If the limit is not enough, the run ends with its first bytes, in the section behind which they
    are first exceeded. -/
theorem emitSections_limited_of_lt {capacity : Nat} {sections : List Section} {held : ByteArray}
    (hheld : held.size ≤ capacity) (h : capacity < writtenBytes b d held sections) :
    (emitSections (.limited capacity) b d held sections).output
        = (emitSections .unlimited b d held sections).output.extract 0 capacity ∧
      ∃ before s after, sections = before ++ s :: after ∧
        writtenBytes b d held before ≤ capacity ∧
        capacity < writtenBytes b d held (before ++ [s]) ∧
        (emitSections (.limited capacity) b d held sections).result
          = .error (.emit s (.sink Sink.fullMessage)) := by
  induction sections generalizing held with
  | nil => exact absurd h (Nat.not_lt.2 hheld)
  | cons s rest ih =>
    by_cases hfits : (held ++ (b.emit s d).text.toUTF8).size ≤ capacity
    · rw [writtenBytes_cons] at h
      cases hs : (b.emit s d).failure? with
      | none =>
        rw [hs] at h
        obtain ⟨houtput, before, t, after, rfl, hle, hlt, hresult⟩ := ih hfits h
        rw [emitSections_limited_cons hheld hs hfits, emitSections_cons_of_completes hs]
        refine ⟨houtput, s :: before, t, after, rfl, ?_, ?_, ?_⟩
        · rwa [writtenBytes_cons, hs]
        · rwa [List.cons_append, writtenBytes_cons, hs]
        · show Except.map _ (emitSections _ b d _ (before ++ t :: after)).result = _
          rw [hresult]
          rfl
      | some cause =>
        -- a section that fails by itself is the last one, and it did fit
        rw [hs, ← ByteArray.size_append] at h
        exact absurd h (Nat.not_lt.2 hfits)
    · have hfull := emitSection_limited hheld s (b.emit s d)
      rw [if_neg hfits] at hfull
      have hrun : emitSections (.limited capacity) b d held (s :: rest)
          = ⟨(held ++ (b.emit s d).text.toUTF8).extract 0 capacity, (b.emit s d).notices,
            .error (.emit s (.sink Sink.fullMessage))⟩ := by
        simp only [emitSections, hfull]
      obtain ⟨more, hmore⟩ := exists_output_cons (b := b) (d := d) held s rest
      rw [hrun, hmore]
      refine ⟨(extract_append_of_le more (by omega)).symm, [], s, rest, rfl, hheld, ?_, rfl⟩
      exact Nat.lt_of_lt_of_le (Nat.not_le.1 hfits) (size_le_writtenBytes_cons held s [])

/-! ## Whole runs -/

/-- A run into a sink that takes only so many bytes, beside the run into one that takes everything,
    for any backend and descriptor. The sink holds the first bytes of the unlimited output, as many
    as there are within the limit. If the output is within the limit, the result is the same. If it
    is not, the sink fails in the first section behind which the unlimited run, whether or not it
    gets further, has written more than the limit. In how many pieces something is written makes no
    difference to the sink. -/
theorem emitAll_limited (b : Backend) (d : Descriptor) (capacity : Nat) :
    let free := emitAll .unlimited b d
    let run := emitAll (.limited capacity) b d
    run.output = free.output.extract 0 (min capacity free.output.size) ∧
    (free.output.size ≤ capacity → run.result = free.result) ∧
    (capacity < free.output.size →
      ∃ before s after, Section.all = before ++ s :: after ∧
        run.result = .error (.emit s (.sink Sink.fullMessage)) ∧
        capacity < writtenBytes b d .empty (before ++ [s]) ∧
        ∀ earlier, earlier <+: before → writtenBytes b d .empty earlier ≤ capacity) ∧
    ∀ (held : ByteArray) (pieces : List ByteArray), held.size ≤ capacity →
      (Sink.limited capacity).writeEach held pieces
        = (Sink.limited capacity).write held (Sink.joined pieces) := by
  intro free run
  have hsize : free.output.size = writtenBytes b d .empty Section.all := rfl
  rcases Nat.lt_or_ge capacity free.output.size with hlt | hle
  · obtain ⟨houtput, before, s, after, hall, hbefore, hbehind, hresult⟩ :=
      emitSections_limited_of_lt (Nat.zero_le capacity) (hsize ▸ hlt)
    refine ⟨?_, fun hle => absurd hlt (Nat.not_lt.2 hle), fun _ => ?_,
      fun held pieces hheld => Sink.writeEach_limited hheld pieces⟩
    · rw [Nat.min_eq_left (Nat.le_of_lt hlt)]
      exact houtput
    · refine ⟨before, s, after, hall, ?_, hbehind, fun earlier hearlier =>
        Nat.le_trans (writtenBytes_mono .empty hearlier) hbefore⟩
      simp only [run, emitAll, hresult]
      rfl
  · have hsame : run = free := by
      simp only [run, free, emitAll, emitSections_limited_of_le (hsize ▸ hle)]
      rfl
    refine ⟨?_, fun _ => by rw [hsame], fun hlt => absurd hlt (Nat.not_lt.2 hle),
      fun held pieces hheld => Sink.writeEach_limited hheld pieces⟩
    rw [hsame, extract_of_size_le (Nat.le_of_eq (Nat.min_eq_right hle).symm)]

end IdlBind
