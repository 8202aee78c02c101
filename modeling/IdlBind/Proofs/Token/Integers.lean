import IdlBind.Proofs.Number.Digits
import IdlBind.Proofs.Token.Lexemes
import Mathlib.Data.List.Induction
import Mathlib.Data.Nat.Digits.Defs

set_option autoImplicit false

/-! # Integer literals

A literal is a minus or nothing, `0x` or `0X` or nothing, and digits of its base. It is read up to
the first character that does not extend it. A value in the 64-bit range is read as it is, and any
other is an error at the start of the literal (`integer_literals_are_exact`). The least 64-bit
integer has decimal literals only: of a hexadecimal one the digits have to be in range before the
minus applies. -/

namespace IdlBind

namespace Number

/-! ## Values -/

/-- Digits are read most significant first. -/
theorem digitsValue_eq_ofDigits (base : Nat) (ds : List Char) :
    digitsValue base ds = Nat.ofDigits base (ds.reverse.map digitValue) := by
  induction ds using List.reverseRecOn with
  | nil => rfl
  | append_singleton ds c ih =>
    rw [digitsValue_append, ih, List.reverse_append, List.reverse_singleton, List.singleton_append,
      List.map_cons, Nat.ofDigits_cons]
    ring

/-- The integer with a sign and a magnitude. -/
def signed (negative : Bool) (magnitude : Nat) : Int :=
  if negative then -magnitude else magnitude

/-- The fault of an integer out of range. -/
def rangeError (negative : Bool) : IntegerError := if negative then .tooSmall else .tooLarge

/-- A sign and a magnitude denote a 64-bit integer exactly if it is in range. -/
theorem ofMagnitude_of_mem {negative : Bool} {magnitude : Nat}
    (hlower : -2 ^ 63 ≤ signed negative magnitude)
    (hupper : signed negative magnitude ≤ 2 ^ 63 - 1) :
    ∃ value : Int64, value.toInt = signed negative magnitude ∧
      ofMagnitude negative magnitude = .ok value := by
  refine ⟨Int64.ofInt (signed negative magnitude),
    Int64.toInt_ofInt_of_le hlower (by omega), ?_⟩
  cases negative with
  | true =>
    have hle : magnitude ≤ Nat.pow 2 63 := by
      simp only [signed, if_true] at hlower
      show magnitude ≤ 9223372036854775808
      omega
    exact if_pos hle
  | false =>
    have hlt : magnitude < Nat.pow 2 63 := by
      simp only [signed, Bool.false_eq_true, if_false] at hupper
      show magnitude < 9223372036854775808
      omega
    exact if_pos hlt

theorem ofMagnitude_of_not_mem {negative : Bool} {magnitude : Nat}
    (h : ¬(-2 ^ 63 ≤ signed negative magnitude ∧ signed negative magnitude ≤ 2 ^ 63 - 1)) :
    ofMagnitude negative magnitude = .error (rangeError negative) := by
  cases negative with
  | true =>
    have hlt : ¬magnitude ≤ Nat.pow 2 63 := by
      simp only [signed, if_true] at h
      show ¬magnitude ≤ 9223372036854775808
      omega
    exact if_neg hlt
  | false =>
    have hle : ¬magnitude < Nat.pow 2 63 := by
      simp only [signed, Bool.false_eq_true, if_false] at h
      show ¬magnitude < 9223372036854775808
      omega
    exact if_neg hle

/-- A minus in front of a magnitude in range changes the sign and nothing else. -/
theorem toInt_neg_of_nonneg {value : Int64} (h : 0 ≤ value.toInt) :
    (-value).toInt = -value.toInt := by
  have hupper := value.toInt_lt
  rw [Int64.toInt_neg]
  exact Int.bmod_eq_of_le (by omega) (by omega)

end Number

namespace Lexer

/-! ## Literals -/

/-- An integer as it is written: its sign, the letter of the hexadecimal mark, and its digits. -/
structure IntegerLiteral where
  negative : Bool
  hexMark? : Option Char
  digits : List Char
  mark : ∀ x ∈ hexMark?, x = 'x' ∨ x = 'X'
  ne_nil : digits ≠ []
  isDigit : ∀ c ∈ digits, (if hexMark?.isSome then Number.isHexDigit c else c.isDigit) = true

namespace IntegerLiteral

/-- The base of the digits. -/
def base (l : IntegerLiteral) : Nat := if l.hexMark?.isSome then 16 else 10

/-- The characters between the sign and the digits. -/
def markText (l : IntegerLiteral) : List Char := l.hexMark?.elim [] fun x => ['0', x]

/-- The characters of a literal. -/
def text (l : IntegerLiteral) : List Char := signText l.negative ++ (l.markText ++ l.digits)

/-- The integer that a literal denotes. -/
def value (l : IntegerLiteral) : Int :=
  Number.signed l.negative (Nat.ofDigits l.base (l.digits.reverse.map Number.digitValue))

/-- Does the character belong to the literal or make another number of it if it follows? -/
def Extends (l : IntegerLiteral) (c : Char) : Prop :=
  match l.hexMark? with
  | some _ => Number.isHexDigit c = true
  | none => c.isDigit = true ∨ c ∈ ['.', 'e', 'E'] ∨ l.digits = ['0'] ∧ c ∈ ['x', 'X']

/-- Is it a hexadecimal literal of the least 64-bit integer? -/
def IsLeastHex (l : IntegerLiteral) : Prop := l.hexMark?.isSome = true ∧ l.value = -2 ^ 63

/-- The fault of a literal that is out of range. -/
def fault (l : IntegerLiteral) : LexicalError :=
  if l.hexMark?.isSome then .malformedHex .tooLarge
  else .malformedInteger (String.ofList (signText l.negative ++ l.digits))
    (Number.rangeError l.negative)

end IntegerLiteral

/-! ## Reading digits -/

theorem ne_of_isDigit {c d : Char} (hc : c.isDigit = true) (hd : d.isDigit = false) : c ≠ d := by
  rintro rfl
  rw [hd] at hc
  exact absurd hc (by simp)

theorem isBlank_of_isDigit {c : Char} (h : c.isDigit = true) : Text.isBlank c = false := by
  have hrange : 48 ≤ c.toNat ∧ c.toNat ≤ 57 := by
    simp only [Char.isDigit, Bool.and_eq_true, decide_eq_true_eq] at h
    exact h
  have hblank : c ≠ ' ' := ne_of_isDigit h (by decide)
  simp only [Text.isBlank, Bool.or_eq_false_iff, Bool.and_eq_false_iff, decide_eq_false_iff_not,
    beq_eq_false_iff_ne, ne_eq, hblank, not_false_eq_true, and_true]
  omega

/-- A decimal text of digits ends where nothing follows that continues it. -/
theorem decimalText_of_digits {digits rest : List Char} (h : ∀ c ∈ digits, c.isDigit = true)
    (hrest : ∀ c ∈ rest.head?, c.isDigit = false ∧ c ∉ ['.', 'e', 'E']) :
    decimalText false (digits ++ rest) = (digits, false, rest) := by
  induction digits with
  | nil =>
    cases rest with
    | nil => rfl
    | cons c rest =>
      obtain ⟨hdigit, hmark⟩ := hrest c rfl
      simp only [List.mem_cons, List.not_mem_nil, or_false, not_or] at hmark
      obtain ⟨hpoint, he, hE⟩ := hmark
      rw [List.nil_append, decimalText.eq_def]
      simp [hdigit, hpoint, he, hE]
  | cons c digits ih =>
    obtain ⟨hc, hdigits⟩ := List.forall_mem_cons.1 h
    rw [List.cons_append, decimalText.eq_def]
    simp only [hc, if_true, ih hdigits]

/-- A decimal literal behind its sign. The first of its digits is no part of a hexadecimal mark. -/
theorem readUnsigned_decimal {negative : Bool} {digits rest : List Char} (hne : digits ≠ [])
    (hdigits : ∀ c ∈ digits, c.isDigit = true)
    (hrest : ∀ c ∈ rest.head?, c.isDigit = false ∧ c ∉ ['.', 'e', 'E'] ∧
      ¬(digits = ['0'] ∧ c ∈ ['x', 'X'])) (p : Position) :
    readUnsigned negative (digits ++ rest) p
      = (decimalToken negative digits false, ⟨rest, p.after digits⟩) := by
  have hdecimal : readUnsigned.readDecimal negative (digits ++ rest) p
      = (decimalToken negative digits false, ⟨rest, p.after digits⟩) := by
    rw [readUnsigned.readDecimal, decimalText_of_digits hdigits fun c hc =>
      ⟨(hrest c hc).1, (hrest c hc).2.1⟩]
  obtain ⟨c, digits, rfl⟩ := List.exists_cons_of_ne_nil hne
  rw [List.cons_append] at hdecimal ⊢
  by_cases hzero : c = '0'
  · subst hzero
    rcases hbehind : digits ++ rest with _ | ⟨x, behind⟩
    · rw [hbehind] at hdecimal
      exact hdecimal
    · have hx : ¬(x = 'x' || x = 'X') = true := by
        intro hmark
        have hmark : x ∈ ['x', 'X'] := by simpa using hmark
        rcases digits with _ | ⟨d, digits⟩
        · obtain ⟨-, -, hextends⟩ := hrest x (by rw [show rest = x :: behind from hbehind]; rfl)
          exact hextends ⟨rfl, hmark⟩
        · obtain ⟨rfl, -⟩ := List.cons.inj hbehind
          have hd := hdigits d (by simp)
          simp only [List.mem_cons, List.not_mem_nil, or_false] at hmark
          rcases hmark with rfl | rfl
          · exact absurd hd (by decide)
          · exact absurd hd (by decide)
      rw [hbehind] at hdecimal
      rw [readUnsigned_zero, if_neg hx]
      exact hdecimal
  · rw [readUnsigned_of_ne negative hzero]
    exact hdecimal

/-- A hexadecimal literal behind its sign. -/
theorem readUnsigned_hex {negative : Bool} {x : Char} {digits rest : List Char}
    (hx : x = 'x' ∨ x = 'X') (hdigits : ∀ c ∈ digits, Number.isHexDigit c = true)
    (hrest : ∀ c ∈ rest.head?, Number.isHexDigit c = false) (p : Position) :
    readUnsigned negative ('0' :: x :: (digits ++ rest)) p
      = (hexToken negative digits, ⟨rest, p.after ('0' :: x :: digits)⟩) := by
  have htake : (digits ++ rest).takeWhile Number.isHexDigit = digits := by
    rw [List.takeWhile_append_of_pos hdigits]
    cases rest with
    | nil => simp
    | cons c rest => simp [hrest c rfl]
  have hdrop : (digits ++ rest).dropWhile Number.isHexDigit = rest := by
    rw [List.dropWhile_append_of_pos hdigits]
    cases rest with
    | nil => rfl
    | cons c rest => simp [hrest c rfl]
  rw [readUnsigned_zero, if_pos (by simpa using hx), htake, hdrop]
  rfl

namespace IntegerLiteral

variable (l : IntegerLiteral)

/-- What a literal is read as. -/
def token : Except LexicalError TokenKind :=
  match l.hexMark? with
  | some _ => hexToken l.negative l.digits
  | none => decimalToken l.negative l.digits false

/-- A literal starts with a digit behind its sign. -/
theorem exists_cons_behind_sign :
    ∃ d ds, l.markText ++ l.digits = d :: ds ∧ d.isDigit = true := by
  obtain ⟨negative, mark, digits, hmark, hne, hdigits⟩ := l
  cases mark with
  | some x => exact ⟨'0', _, rfl, by decide⟩
  | none =>
    obtain ⟨d, ds, rfl⟩ := List.exists_cons_of_ne_nil hne
    exact ⟨d, ds, rfl, hdigits d (by simp)⟩

variable {l} {rest : List Char} (hrest : ∀ c ∈ rest.head?, ¬l.Extends c)

include hrest

theorem readUnsigned_text (p : Position) :
    readUnsigned l.negative (l.markText ++ l.digits ++ rest) p
      = (l.token, ⟨rest, p.after (l.markText ++ l.digits)⟩) := by
  obtain ⟨negative, mark, digits, hmark, hne, hdigits⟩ := l
  cases mark with
  | some x =>
    exact readUnsigned_hex (hmark x rfl) hdigits
      (fun c hc => Bool.eq_false_iff.2 (hrest c hc)) p
  | none =>
    refine readUnsigned_decimal hne hdigits (fun c hc => ?_) p
    obtain ⟨hdigit, hother⟩ := not_or.1 (hrest c hc)
    obtain ⟨hmark, hzero⟩ := not_or.1 hother
    exact ⟨Bool.eq_false_iff.2 hdigit, hmark, hzero⟩

/-- The literal is read up to what does not extend it. -/
theorem readKind_text (p : Position) :
    readKind (l.text ++ rest) p = (l.token, ⟨rest, p.after l.text⟩) := by
  obtain ⟨d, ds, hbehind, hd⟩ := l.exists_cons_behind_sign
  have hread := readUnsigned_text hrest
  rw [hbehind] at hread
  have hne : ∀ c : Char, c.isDigit = false → d ≠ c := fun c => ne_of_isDigit hd
  unfold text
  rw [hbehind]
  cases hsign : l.negative with
  | true =>
    rw [hsign] at hread
    have hnumber : startsNumber '-' (d :: (ds ++ rest)) = true := by simp [startsNumber, hd]
    show readKind ('-' :: (d :: (ds ++ rest))) p = _
    rw [readKind_cons p (by decide) (by simp) (by simp), if_pos hnumber]
    exact hread (p.next '-')
  | false =>
    rw [hsign] at hread
    have hnumber : startsNumber d (ds ++ rest) = true := by simp [startsNumber, hd]
    show readKind (d :: (ds ++ rest)) p = _
    rw [readKind_cons p (hne '"' (by decide)) (fun _ h _ => hne '%' (by decide) h)
        (fun _ h _ => hne '.' (by decide) h), if_pos hnumber,
      readNumber_of_ne (hne '-' (by decide))]
    exact hread p

omit hrest in
/-- No blank and no comment starts with a literal. -/
theorem not_startsGap : ¬StartsGap (l.text ++ rest) := by
  obtain ⟨d, ds, hbehind, hd⟩ := l.exists_cons_behind_sign
  unfold text
  rw [hbehind]
  cases l.negative with
  | true =>
    show ¬(Text.isBlank '-' = true ∨ '-' = '/' ∧ _)
    simp [show Text.isBlank '-' = false by decide]
  | false =>
    show ¬(Text.isBlank d = true ∨ d = '/' ∧ _)
    simp [isBlank_of_isDigit hd, ne_of_isDigit hd (d := '/') (by decide)]

end IntegerLiteral

/-! ## What a literal denotes -/

section

variable {negative : Bool} {digits : List Char} (hne : digits ≠ [])

include hne

theorem decimalToken_of_mem
    (hlower : -2 ^ 63 ≤ Number.signed negative (Number.digitsValue 10 digits))
    (hupper : Number.signed negative (Number.digitsValue 10 digits) ≤ 2 ^ 63 - 1) :
    ∃ value : Int64, value.toInt = Number.signed negative (Number.digitsValue 10 digits) ∧
      decimalToken negative digits false = .ok (.integer value) := by
  obtain ⟨value, hvalue, hof⟩ := Number.ofMagnitude_of_mem hlower hupper
  have hdecimal : Number.ofDecimalDigits negative digits = .ok value :=
    (if_neg (by simpa using hne)).trans hof
  exact ⟨value, hvalue, by simp [decimalToken, hdecimal]⟩

theorem decimalToken_of_not_mem
    (h : ¬(-2 ^ 63 ≤ Number.signed negative (Number.digitsValue 10 digits) ∧
      Number.signed negative (Number.digitsValue 10 digits) ≤ 2 ^ 63 - 1)) :
    decimalToken negative digits false = .error (.malformedInteger
      (String.ofList (signText negative ++ digits)) (Number.rangeError negative)) := by
  have hdecimal : Number.ofDecimalDigits negative digits = .error (Number.rangeError negative) :=
    (if_neg (by simpa using hne)).trans (Number.ofMagnitude_of_not_mem h)
  cases negative <;> simp [decimalToken, hdecimal, signText]

/-- Hexadecimal digits are read without their sign, and then it applies. -/
theorem hexToken_of_mem (hlower : -2 ^ 63 < Number.signed negative (Number.digitsValue 16 digits))
    (hupper : Number.signed negative (Number.digitsValue 16 digits) ≤ 2 ^ 63 - 1) :
    ∃ value : Int64, value.toInt = Number.signed negative (Number.digitsValue 16 digits) ∧
      hexToken negative digits = .ok (.integer value) := by
  have hmagnitude : (Number.digitsValue 16 digits : Int) ≤ 2 ^ 63 - 1 := by
    cases negative <;> simp only [Number.signed, Bool.false_eq_true, if_false, if_true] at * <;>
      omega
  have hpositive : -2 ^ 63 ≤ Number.signed false (Number.digitsValue 16 digits) := by
    simp only [Number.signed, Bool.false_eq_true, if_false]
    omega
  obtain ⟨value, hvalue, hof⟩ := Number.ofMagnitude_of_mem hpositive hmagnitude
  have hvalue : value.toInt = Number.digitsValue 16 digits := hvalue
  have hhex : Number.ofHexDigits negative digits = .ok (if negative then -value else value) := by
    unfold Number.ofHexDigits
    rw [if_neg (by simpa using hne), hof]
    rfl
  refine ⟨if negative then -value else value, ?_, by simp [hexToken, hhex]⟩
  cases negative with
  | true => exact (Number.toInt_neg_of_nonneg (by omega)).trans (congrArg Neg.neg hvalue)
  | false => exact hvalue

theorem hexToken_of_not_mem (h : 2 ^ 63 ≤ Number.digitsValue 16 digits) :
    hexToken negative digits = .error (.malformedHex .tooLarge) := by
  have hof : Number.ofMagnitude false (Number.digitsValue 16 digits) = .error .tooLarge :=
    Number.ofMagnitude_of_not_mem (by
      simp only [Number.signed, Bool.false_eq_true, if_false]
      omega)
  have hhex : Number.ofHexDigits negative digits = .error .tooLarge := by
    unfold Number.ofHexDigits
    rw [if_neg (by simpa using hne), hof]
    rfl
  simp [hexToken, hhex]

end

namespace IntegerLiteral

theorem value_eq (l : IntegerLiteral) :
    l.value = Number.signed l.negative (Number.digitsValue l.base l.digits) := by
  rw [value, Number.digitsValue_eq_ofDigits]

/-- A literal in range is read as its value, unless it is the hexadecimal one of the least
    integer. -/
theorem token_of_mem (l : IntegerLiteral) (hlower : -2 ^ 63 ≤ l.value)
    (hupper : l.value ≤ 2 ^ 63 - 1) (hleast : ¬l.IsLeastHex) :
    ∃ value : Int64, value.toInt = l.value ∧ l.token = .ok (.integer value) := by
  unfold IsLeastHex at hleast
  unfold token
  rw [l.value_eq, base] at *
  cases hmark : l.hexMark? with
  | none =>
    simp only [hmark, Option.isSome_none, Bool.false_eq_true, if_false] at *
    exact decimalToken_of_mem l.ne_nil hlower hupper
  | some x =>
    simp only [hmark, Option.isSome_some, if_true, true_and] at *
    exact hexToken_of_mem l.ne_nil (by omega) hupper

/-- A literal out of range is an error, and so is the hexadecimal one of the least integer. -/
theorem token_of_not_mem (l : IntegerLiteral)
    (h : ¬(-2 ^ 63 ≤ l.value ∧ l.value ≤ 2 ^ 63 - 1) ∨ l.IsLeastHex) :
    l.token = .error l.fault := by
  unfold IsLeastHex at h
  unfold token fault
  rw [l.value_eq, base] at h
  cases hmark : l.hexMark? with
  | none =>
    simp only [hmark, Option.isSome_none, Bool.false_eq_true, if_false, false_and, or_false] at *
    exact decimalToken_of_not_mem l.ne_nil h
  | some x =>
    simp only [hmark, Option.isSome_some, if_true, true_and] at *
    refine hexToken_of_not_mem l.ne_nil ?_
    unfold Number.signed at h
    split at h <;> omega

end IntegerLiteral

/-- Integer literals are exact. Behind blanks and comments, and in front of anything that does not
    extend it, a literal is read up to its end. If its value is in the 64-bit range it is read as
    that value; else it is an error at its first character. The one exception is the least integer,
    which a hexadecimal literal does not denote. -/
theorem integer_literals_are_exact (l : IntegerLiteral) {filler rest : List Char}
    (hfiller : IsFiller filler) (hrest : ∀ c ∈ rest.head?, ¬l.Extends c) (p : Position) :
    let start := p.after filler
    let read := (Lexer.mk (filler ++ (l.text ++ rest)) p).next
    read.2 = ⟨rest, start.after l.text⟩ ∧
    (-2 ^ 63 ≤ l.value → l.value ≤ 2 ^ 63 - 1 → ¬l.IsLeastHex →
      ∃ value : Int64, value.toInt = l.value ∧ read.1 = .ok ⟨.integer value, start⟩) ∧
    (¬(-2 ^ 63 ≤ l.value ∧ l.value ≤ 2 ^ 63 - 1) ∨ l.IsLeastHex →
      read.1 = .error (.lexical l.fault start)) := by
  intro start read
  have hread : read = (placed l.token start, ⟨rest, start.after l.text⟩) := by
    show (Lexer.mk (filler ++ (l.text ++ rest)) p).next = _
    unfold next
    dsimp only
    rw [skipGap_filler hfiller, skipGap_of_not_startsGap IntegerLiteral.not_startsGap]
    dsimp only
    rw [IntegerLiteral.readKind_text hrest]
    cases l.token <;> rfl
  rw [hread]
  refine ⟨rfl, fun hlower hupper hleast => ?_, fun h => ?_⟩
  · obtain ⟨value, hvalue, htoken⟩ := l.token_of_mem hlower hupper hleast
    exact ⟨value, hvalue, by rw [htoken]; rfl⟩
  · rw [l.token_of_not_mem h]
    rfl

namespace IntegerLiteral

/-- The least integer with decimal digits. -/
def leastDecimal : IntegerLiteral :=
  ⟨true, none, "009223372036854775808".toList, by simp, by decide, List.all_eq_true.1 (by decide)⟩

/-- The least integer with hexadecimal digits. -/
def leastHex : IntegerLiteral :=
  ⟨true, some 'x', "8000000000000000".toList, by simp, by decide, List.all_eq_true.1 (by decide)⟩

theorem value_least : leastDecimal.value = -2 ^ 63 ∧ leastHex.value = -2 ^ 63 := by
  rw [value_eq, value_eq]
  decide

end IntegerLiteral

/-- Behind a comment and in front of a letter that is no digit. -/
theorem integer_literals_are_exact_least :
    IsFiller "/*-*/".toList ∧ (∀ c ∈ ['x'].head?, ¬IntegerLiteral.leastDecimal.Extends c) ∧
    IntegerLiteral.leastDecimal.value = -2 ^ 63 ∧ ¬IntegerLiteral.leastDecimal.IsLeastHex ∧
    ∃ value : Int64, value.toInt = -2 ^ 63 ∧
      (Lexer.ofString "/*-*/-009223372036854775808x").next
        = (.ok ⟨.integer value, ⟨1, 6⟩⟩, ⟨['x'], ⟨1, 28⟩⟩) := by
  have hfiller : IsFiller "/*-*/".toList :=
    @IsFiller.blockComment ['-'] [] (by decide) .nil
  have hrest : ∀ c ∈ ['x'].head?, ¬IntegerLiteral.leastDecimal.Extends c := by
    simp [IntegerLiteral.Extends, IntegerLiteral.leastDecimal]
  have hleast : ¬IntegerLiteral.leastDecimal.IsLeastHex := fun h => absurd h.1 (by decide)
  obtain ⟨hvalue, -⟩ := IntegerLiteral.value_least
  obtain ⟨hbehind, hmem, -⟩ :=
    integer_literals_are_exact IntegerLiteral.leastDecimal hfiller hrest .start
  obtain ⟨value, hint, hread⟩ := hmem (by rw [hvalue]) (by rw [hvalue]; decide) hleast
  exact ⟨hfiller, hrest, hvalue, hleast, value, hint.trans hvalue, Prod.ext hread hbehind⟩

/-- The least integer is in range, but its hexadecimal literal is an error. -/
theorem least_hex_is_an_error :
    String.ofList IntegerLiteral.leastHex.text = "-0x8000000000000000" ∧
    -2 ^ 63 ≤ IntegerLiteral.leastHex.value ∧ IntegerLiteral.leastHex.value ≤ 2 ^ 63 - 1 ∧
    (Lexer.ofString "-0x8000000000000000").next.1
      = .error (.lexical (.malformedHex .tooLarge) ⟨1, 1⟩) := by
  obtain ⟨-, hvalue⟩ := IntegerLiteral.value_least
  rw [hvalue]
  exact ⟨by decide, by decide, by decide, by decide⟩

end Lexer

end IdlBind
