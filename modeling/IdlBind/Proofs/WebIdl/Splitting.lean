import IdlBind.Proofs.Token.Seam
import IdlBind.Proofs.WebIdl.Sources
import IdlBind.Proofs.WebIdl.Statements

set_option autoImplicit false

/-! # One source or several

Whether definitions stand in one source or in several with line feeds between them makes no
difference (`addSource_newline`, `load_eq_parse`). A source that can be parsed ends behind a
statement or extended attributes, and none of its statements looks at what follows it. -/

namespace IdlBind.WebIdl

open TokenParser

/-! ## Statements that were completed -/

/-- Statements that are read one after the other, with the definitions among them. -/
inductive Completed : List Token → List Definition → List Token → Prop
  | stop (ts : List Token) : Completed ts [] ts
  | next {ts mid rest : List Token} {d? : Option Definition} {found : List Definition}
      (hstatement : statement ts = .ok (some d?, mid)) (hmore : Completed mid found rest) :
      Completed ts (d?.toList ++ found) rest

theorem completed_of_collect {ts : List Token} {found : List (Option Definition)} {e : ParseError}
    (h : Parser.collect statement ts = (found, .error e)) :
    ∃ rest, Completed ts (found.filterMap id) rest ∧ statement rest = .error e := by
  fun_induction Parser.collect statement ts generalizing found with
  | case1 ts e' hitem =>
    obtain ⟨rfl, he⟩ := Prod.mk.inj h
    obtain rfl := Except.error.inj he
    exact ⟨ts, .stop ts, hitem⟩
  | case2 => exact absurd (Prod.mk.inj h).2 (by simp)
  | case3 ts d? mid hitem hlt more outcome hmore ih =>
    obtain ⟨rfl, rfl⟩ := Prod.mk.inj h
    obtain ⟨rest, hcompleted, herror⟩ := ih hmore
    refine ⟨rest, ?_, herror⟩
    have hnext := Completed.next hitem hcompleted
    cases d? <;> exact hnext
  | case4 => exact absurd (Prod.mk.inj h).2 (by simp)

/-- In front of an error stand the definitions of the statements that were completed, and none of
    the statement with the error. -/
theorem completed_of_error {ts : List Token} {e : ParseError}
    (h : (definitions ts).2 = .error e) :
    ∃ rest, Completed ts (definitions ts).1 rest ∧ statement rest = .error e := by
  rcases hcollect : Parser.collect statement ts with ⟨found, e' | rest⟩
  · simp only [definitions, hcollect] at h ⊢
    obtain rfl : e' = e := by simpa [Except.map] using h
    exact completed_of_collect hcollect
  · simp only [definitions, hcollect] at h
    exact absurd h (by simp [Except.map])

/-! ## Sources -/

theorem readSource_newline {a b : String} {stream : TokenStream} (ha : (readSource a).2 = .ok ())
    (hb : TokenStream.ofString b = .ok stream) :
    readSource (a ++ "\n" ++ b) = ((readSource a).1 ++ (readSource b).1,
      (readSource b).2.mapError (·.relocate (·.shift (lineCount a)))) := by
  unfold readSource at ha ⊢
  cases hstream : TokenStream.ofString a with
  | error e =>
    rw [hstream] at ha
    exact absurd ha (by simp)
  | ok first =>
    rw [hstream] at ha
    rw [TokenStream.ofString_newline hstream hb, hb]
    dsimp only
    rw [definitions_append ha, definitions_relocate]

theorem exists_stream_of_readSource {source : String} (h : (readSource source).2 = .ok ()) :
    ∃ stream, TokenStream.ofString source = .ok stream := by
  unfold readSource at h
  split at h
  · exact absurd h (by simp)
  · exact ⟨_, ‹_›⟩

theorem readSource_empty : readSource "" = ([], .ok ()) := by
  have hstream : TokenStream.ofString "" = .ok ⟨[], .start⟩ := by decide +kernel
  unfold readSource
  rw [hstream]
  dsimp only
  rw [definitions, Parser.collect, statement_nil]
  rfl

/-- Sources that can be parsed, with line feeds between them, contribute what each of them does. -/
theorem readSource_intercalate {sources : List String}
    (h : ∀ source ∈ sources, (readSource source).2 = .ok ()) :
    readSource ("\n".intercalate sources) = (sources.flatMap (readSource · |>.1), .ok ()) := by
  induction sources with
  | nil => exact readSource_empty
  | cons first rest ih =>
    have hfirst := h first List.mem_cons_self
    have hrest := ih fun source hsource => h source (List.mem_cons_of_mem _ hsource)
    cases rest with
    | nil =>
      rw [String.intercalate_singleton, List.flatMap_singleton, ← hfirst]
    | cons second rest =>
      obtain ⟨stream, hstream⟩ := exists_stream_of_readSource (congrArg Prod.snd hrest)
      rw [String.intercalate_cons_cons, readSource_newline hfirst hstream, hrest, List.flatMap_cons]
      rfl

theorem readSource_of_mem {read : Reader Id} {references sources : List String}
    (h : List.Forall₂ (fun reference source => read reference = .ok source ∧
      ∃ nodes, parse source = .ok nodes) references sources) :
    ∀ source ∈ sources, (readSource source).2 = .ok () := by
  induction h with
  | nil => exact fun source hsource => absurd hsource (by simp)
  | cons hfirst _ ih =>
    intro source hsource
    rcases List.mem_cons.1 hsource with rfl | hsource
    · exact (parse_isOk_iff _).1 hfirst.2
    · exact ih source hsource

theorem ofSources_eq_insertAll (sources : List String) :
    Document.ofSources sources
      = Document.empty.insertAll (sources.flatMap (readSource · |>.1)) := by
  unfold Document.ofSources
  generalize Document.empty = doc
  induction sources generalizing doc with
  | nil => rfl
  | cons source rest ih =>
    rw [List.foldl_cons, ih, addSource_eq, List.flatMap_cons, Document.insertAll_append]

/-- Splitting a text into sources makes no difference. Where one source can be parsed and the other
    tokenized, adding both in order and adding them as one text, with a line feed between them, lead
    to the same document and the same outcome, up to the lines by which the position of an error is
    shifted; in front of an error, the definitions of the statements completed before it are merged
    and nothing else. Loading any list of sources that can be parsed gives the trees of the one text
    that they make up. -/
theorem splitting_is_neutral :
    (∀ (doc : Document) (a b : String) (stream : TokenStream), (doc.addSource a).2 = .ok () →
      TokenStream.ofString b = .ok stream →
      let once := doc.addSource (a ++ "\n" ++ b)
      let twice := (doc.addSource a).1.addSource b
      once.1 = twice.1 ∧ once.2 = twice.2.mapError (·.relocate (·.shift (lineCount a))) ∧
        ∀ e, twice.2 = .error e → ∃ found rest, Completed stream.ahead found rest ∧
          statement rest = .error e ∧ twice.1 = (doc.addSource a).1.insertAll found) ∧
    (∀ (read : Reader Id) (statements : List Node) (references sources : List String),
      Node.eachKind .webIdlFile statements = references.map (Node.text .webIdlFile) →
      List.Forall₂ (fun reference source => read reference = .ok source ∧
        ∃ nodes, parse source = .ok nodes) references sources →
      ∃ doc, load read statements = .ok doc ∧
        parse ("\n".intercalate sources) = .ok doc.toNodes) := by
  constructor
  · intro doc a b stream ha hb once twice
    rw [addSource_eq] at ha
    have honce : once = ((doc.insertAll (readSource a).1).insertAll (readSource b).1,
        (readSource b).2.mapError (·.relocate (·.shift (lineCount a)))) := by
      show doc.addSource (a ++ "\n" ++ b) = _
      rw [addSource_eq, readSource_newline ha hb, Document.insertAll_append]
    have htwice : twice = ((doc.insertAll (readSource a).1).insertAll (readSource b).1,
        (readSource b).2) := by
      show (doc.addSource a).1.addSource b = _
      rw [addSource_eq, addSource_eq]
    rw [honce, htwice]
    refine ⟨rfl, rfl, fun e he => ?_⟩
    have hread : readSource b = definitions stream.ahead := by rw [readSource, hb]
    rw [hread] at he
    obtain ⟨rest, hcompleted, herror⟩ := completed_of_error he
    refine ⟨_, rest, hcompleted, herror, ?_⟩
    rw [addSource_eq, hread]
  · intro read statements references sources hreferences hsources
    have hload : load read statements = .ok (Document.ofSources sources) := by
      unfold load
      rw [hreferences, loadInto_eq_ok_iff]
      exact ⟨sources, hsources, rfl⟩
    refine ⟨_, hload, ?_⟩
    unfold parse
    rw [addSource_eq, readSource_intercalate (readSource_of_mem hsources), ofSources_eq_insertAll]

/-- A partial definition, and behind it the definition that it adds to and one that breaks off. -/
def brokenOff : String × String :=
  ("partial interface A \x7b \x7d; // comment",
    "interface A \x7b attribute long x; \x7d;\ninterface B \x7b")

/-- The error at the end leaves the definition in front of it merged. The first text twice is the
    text of a file that is referred to twice. -/
theorem splitting_brokenOff :
    (Document.empty.addSource brokenOff.1).2 = .ok () ∧
    (Document.empty.addSource (brokenOff.1 ++ "\n" ++ brokenOff.2)).2
      = .error (.unexpectedEof (.punct '\x7d')) ∧
    (Document.empty.addSource (brokenOff.1 ++ "\n" ++ brokenOff.2)).1
      = ((Document.empty.addSource brokenOff.1).1.addSource brokenOff.2).1 ∧
    ∃ doc, load (readTable [("a.idl", brokenOff.1)])
        [.text .webIdlFile "a.idl", .text .webIdlFile "a.idl"] = .ok doc ∧
      parse ("\n".intercalate [brokenOff.1, brokenOff.1]) = .ok doc.toNodes := by
  have ha : (Document.empty.addSource brokenOff.1).2 = .ok () := by decide +kernel
  have hstream : (TokenStream.ofString brokenOff.2).isOk = true := by decide +kernel
  rcases hb : TokenStream.ofString brokenOff.2 with e | stream
  · rw [hb] at hstream
    exact absurd hstream (by simp [Except.isOk, Except.toBool])
  obtain ⟨hsplit, hload⟩ := splitting_is_neutral
  obtain ⟨honce, houtcome, -⟩ := hsplit Document.empty brokenOff.1 brokenOff.2 stream ha hb
  have herror : ((Document.empty.addSource brokenOff.1).1.addSource brokenOff.2).2
      = .error (.unexpectedEof (.punct '\x7d')) := by decide +kernel
  rw [herror] at houtcome
  have hread : readTable [("a.idl", brokenOff.1)] "a.idl" = .ok brokenOff.1 := rfl
  have hparse : ∃ nodes, parse brokenOff.1 = .ok nodes := by
    rw [parse_isOk_iff]
    rw [addSource_eq] at ha
    exact ha
  exact ⟨ha, houtcome, honce, hload _ _ ["a.idl", "a.idl"] _ rfl
    (.cons ⟨hread, hparse⟩ (.cons ⟨hread, hparse⟩ .nil))⟩

end IdlBind.WebIdl
