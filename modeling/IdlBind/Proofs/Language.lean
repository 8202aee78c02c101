import IdlBind.Language
import IdlBind.Proofs.Binding.Truncation
import IdlBind.Proofs.WebIdl.Truncation
import Mathlib.Data.List.Basic

set_option autoImplicit false

/-! # Sources that are cut off

Of tokens that are accepted in either language, all that stand in front of a cut are accepted as
well, or the end of the file comes too early (`cut_meets_end`). The exception is a cut between the
two brackets of an empty pair behind a type. -/

namespace IdlBind

namespace Language

/-- Are the tokens accepted, and if not, why? -/
def outcome : Language → List Token → Except ParseError Unit
  | .webIdl, tokens => (WebIdl.definitions tokens).2
  | .binding, tokens => (Binding.description tokens).map fun _ => ()

/-- A text has the outcome of its tokens. -/
theorem outcome_parse (language : Language) {source : String} {stream : TokenStream}
    (hstream : TokenStream.ofString source = .ok stream) :
    (language.parse source).map (fun _ => ()) = language.outcome stream.ahead := by
  cases language with
  | webIdl =>
    show Except.map _ (WebIdl.parse source) = (WebIdl.definitions stream.ahead).2
    simp only [WebIdl.parse, WebIdl.Document.addSource, hstream]
    rcases WebIdl.definitions stream.ahead with ⟨found, e | ⟨⟩⟩ <;> rfl
  | binding =>
    show Except.map _ (Binding.parse source) = (Binding.description stream.ahead).map _
    simp only [Binding.parse, parseText, hstream]
    cases hread : Binding.description stream.ahead <;>
      simp [bind, Except.bind, Except.map, pure, Except.pure, hread]

/-- Tokens in front of a cut are accepted, or the end of the file comes too early, if the tokens are
    accepted with those behind the cut. In WebIDL the cut must not be between the brackets of an
    empty pair behind a type. The outcome of tokens is that of the text from which they are read. -/
theorem cut_meets_end {language : Language} {front rest : List Token}
    (haccepted : language.outcome (front ++ rest) = .ok ())
    (hintact : language = .webIdl → ¬WebIdl.CutsBrackets (front ++ rest) rest) :
    (language.outcome front = .ok () ∨
      ∃ expected, language.outcome front = .error (.unexpectedEof expected)) ∧
    ∀ source stream, TokenStream.ofString source = .ok stream →
      (language.parse source).map (fun _ => ()) = language.outcome stream.ahead := by
  refine ⟨?_, fun source stream hstream => outcome_parse language hstream⟩
  cases language with
  | webIdl => exact WebIdl.definitions_truncated haccepted (hintact rfl)
  | binding => exact Binding.description_truncated haccepted

/-- The tokens of an interface with arrays, up to the minus of a default value. -/
def dialFront : List Token :=
  place [.punct '[', .punct ']', .ident "interface", .ident "Dial", .punct '{', .ident "attribute",
    .ident "long", .punct '[', .punct ']', .punct '[', .punct ']', .ident "marks", .punct ';',
    .ident "void", .ident "turn", .punct '(', .ident "sequence", .punct '<', .ident "octet",
    .punct '[', .punct ']', .punct '>', .ident "by", .punct ',', .ident "optional", .ident "double",
    .ident "speed", .punct '=', .punct '-']

/-- The tokens behind the minus. -/
def dialRest : List Token :=
  place [.ident "Infinity", .punct ')', .punct ';', .punct '\x7d', .punct ';']

/-- A cut behind the minus of a default value. -/
theorem cut_meets_end_dial : Language.webIdl.outcome (dialFront ++ dialRest) = .ok () ∧
    ¬WebIdl.CutsBrackets (dialFront ++ dialRest) dialRest ∧
    (Language.webIdl.outcome dialFront = .ok () ∨
      ∃ expected, Language.webIdl.outcome dialFront = .error (.unexpectedEof expected)) := by
  have haccepted : Language.webIdl.outcome (dialFront ++ dialRest) = .ok () := by decide +kernel
  have hintact : ¬WebIdl.CutsBrackets (dialFront ++ dialRest) dialRest := by
    -- the rest starts with an identifier
    rintro ⟨ts, t, out, -, -, p, p', pairs, -, hrest, -⟩
    exact absurd (congrArg Token.kind (List.cons.inj hrest).1) (by simp)
  exact ⟨haccepted, hintact, (cut_meets_end haccepted fun _ => hintact).1⟩

/-- Behind the first bracket of a pair, what follows the type is missing, and the bracket is found
    in its place. -/
example : Language.webIdl.outcome (dialFront.take 8)
    = .error (.unexpectedToken .identifier (.punct '[') .start) := by decide +kernel

end Language

end IdlBind
