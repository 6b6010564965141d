import FluentRegex.Chain.Quoted
import FluentRegex.Text.Blank
import FluentRegex.Text.Letter
import FluentRegex.Text.Numeral

/-!
The lexemes of chain text. Blanks separate lexemes and are dropped. Texts may be quoted by any of
three quotes; numbers are ASCII digits with a value below `2 ^ 32`. A place in the text is named
by the text from there on.
-/

namespace FluentRegex.Chain

inductive Lexeme where
  | name (t : Text)
  | number (n : UInt32)
  | text (t : Text)
  | dot | comma | leftParen | rightParen | leftBrace | rightBrace | arrow | semicolon
  deriving DecidableEq, Repr

inductive LexicalError where
  /-- No lexeme starts with this character. -/
  | unexpected (found : Char)
  /-- A number is too large. -/
  | invalidNumber
  /-- A quoted text is not closed. -/
  | unterminated
  deriving DecidableEq, Repr

def isNameStart (c : Char) : Bool :=
  Text.isAlphabetic c || c == '_' || c == '$'

def isNamePart (c : Char) : Bool :=
  isNameStart c || Text.isNumeric c

def punctuation? : Char → Option Lexeme
  | '.' => some .dot
  | ',' => some .comma
  | '(' => some .leftParen
  | ')' => some .rightParen
  | '{' => some .leftBrace
  | '}' => some .rightBrace
  | ';' => some .semicolon
  | _ => none

/-- The lexeme that starts with the character `c`, which is not blank, and the text after it. -/
def lexeme (c : Char) (rest : Text) : Except LexicalError (Lexeme × Text) :=
  match punctuation? c with
  | some l => .ok (l, rest)
  | none =>
    if c = '=' && rest.head? = some '>' then .ok (.arrow, rest.tail)
    else if isQuote c then
      match takeQuoted? c rest with
      | some (t, rest') => .ok (.text t, rest')
      | none => .error .unterminated
    else if c.isDigit then
      match Text.bound? (c :: rest.takeWhile Char.isDigit) with
      | some n => .ok (.number n, rest.dropWhile Char.isDigit)
      | none => .error .invalidNumber
    else if isNameStart c then
      .ok (.name (c :: rest.takeWhile isNamePart), rest.dropWhile isNamePart)
    else .error (.unexpected c)

/-- A lexeme takes its first character and then some more of the text. -/
theorem suffix_of_lexeme {c : Char} {t rest : Text} {l : Lexeme} (h : lexeme c t = .ok (l, rest)) :
    rest <:+ t := by
  unfold lexeme at h
  split at h
  · cases h; exact List.suffix_refl _
  split at h
  · cases h; exact List.tail_suffix _
  split at h
  · split at h
    · next hq => cases h; exact suffix_of_takeQuoted? hq
    · cases h
  split at h
  · split at h
    · cases h; exact List.dropWhile_suffix _
    · cases h
  split at h
  · cases h; exact List.dropWhile_suffix _
  · cases h

/-- A lexeme and its place: the text from its first character on. -/
structure Located where
  place : Text
  lexeme : Lexeme
  deriving DecidableEq, Repr

/-- How the lexemes of a text end: with the text, or at a place from which no lexeme can be read. -/
inductive Ending where
  | complete
  | fault (place : Text) (error : LexicalError)
  deriving DecidableEq, Repr

/-- The lexemes of a text, and how they end. -/
def lex : Text → List Located × Ending
  | [] => ([], .complete)
  | c :: t =>
    if Text.isBlank c then lex t
    else
      match h : lexeme c t with
      | .error e => ([], .fault (c :: t) e)
      | .ok (l, rest) =>
        have := (suffix_of_lexeme h).length_le
        match lex rest with
        | (ls, ending) => (⟨c :: t, l⟩ :: ls, ending)
termination_by t => t.length

@[simp] theorem lex_nil : lex [] = ([], .complete) := by
  unfold lex
  rfl

theorem lex_of_blank {c : Char} {t : Text} (h : Text.isBlank c = true) : lex (c :: t) = lex t := by
  conv => lhs; unfold lex
  simp [h]

theorem lex_of_lexeme {c : Char} {t rest : Text} {l : Lexeme} (hb : Text.isBlank c = false)
    (h : lexeme c t = .ok (l, rest)) :
    lex (c :: t) = (⟨c :: t, l⟩ :: (lex rest).1, (lex rest).2) := by
  conv => lhs; unfold lex
  simp only [hb, Bool.false_eq_true, if_false]
  split
  · next h' => simp [h] at h'
  · next h' =>
    obtain ⟨rfl, rfl⟩ : l = _ ∧ rest = _ := by simpa [h] using h'
    rfl

theorem lex_of_error {c : Char} {t : Text} {e : LexicalError} (hb : Text.isBlank c = false)
    (h : lexeme c t = .error e) : lex (c :: t) = ([], .fault (c :: t) e) := by
  conv => lhs; unfold lex
  simp only [hb, Bool.false_eq_true, if_false]
  split
  · next h' =>
    obtain rfl : e = _ := by simpa [h] using h'
    rfl
  · next h' => simp [h] at h'

end FluentRegex.Chain
