import FluentRegex.Source

/-!
The seventeen sequences of fixed meaning, each with the operation that writes it. The table pairs
a token with one source unit and one name, and both directions are one-to-one.
-/

namespace FluentRegex

/-- A sequence of fixed meaning. -/
inductive Token where
  | digit | notDigit | any | whitespace | notWhitespace | newline | tab | word | notWord
  | wordBoundary | notWordBoundary | lazy | anyNumber | or | oneOrMore | stringEnd | stringBegin
  deriving DecidableEq, Repr

namespace Token

def all : List Token :=
  [digit, notDigit, any, whitespace, notWhitespace, newline, tab, word, notWord,
    wordBoundary, notWordBoundary, lazy, anyNumber, or, oneOrMore, stringEnd, stringBegin]

def unit : Token → SourceUnit
  | digit => .escaped 'd'
  | notDigit => .escaped 'D'
  | any => .plain '.'
  | whitespace => .escaped 's'
  | notWhitespace => .escaped 'S'
  | newline => .escaped 'n'
  | tab => .escaped 't'
  | word => .escaped 'w'
  | notWord => .escaped 'W'
  | wordBoundary => .escaped 'b'
  | notWordBoundary => .escaped 'B'
  | lazy => .plain '?'
  | anyNumber => .plain '*'
  | or => .plain '|'
  | oneOrMore => .plain '+'
  | stringEnd => .plain '$'
  | stringBegin => .plain '^'

def sequence (k : Token) : Text :=
  k.unit.text

def name : Token → Text
  | digit => "digit".toList
  | notDigit => "notDigit".toList
  | any => "any".toList
  | whitespace => "whitespace".toList
  | notWhitespace => "notWhitespace".toList
  | newline => "newline".toList
  | tab => "tab".toList
  | word => "word".toList
  | notWord => "notWord".toList
  | wordBoundary => "wordBoundary".toList
  | notWordBoundary => "notWordBoundary".toList
  | lazy => "lazy".toList
  | anyNumber => "anyNumber".toList
  | or => "or".toList
  | oneOrMore => "oneOrMore".toList
  | stringEnd => "stringEnd".toList
  | stringBegin => "stringBegin".toList

def ofUnit? (u : SourceUnit) : Option Token :=
  all.find? (·.unit == u)

/-- The token that is written as exactly this text. -/
def ofSequence? (t : Text) : Option Token :=
  all.find? (·.sequence == t)

def ofName? (t : Text) : Option Token :=
  all.find? (·.name == t)

/-- Whether the operation takes bounds. Anchors of the whole text, alternation and the repetition
operators take none; word boundaries do. -/
def quantifiable : Token → Bool
  | lazy | anyNumber | or | oneOrMore | stringEnd | stringBegin => false
  | _ => true

/-- Whether the token is a shorthand for a class of characters or for one control character, which
a set can hold only when its body is a chain of calls. -/
def classShorthand : Token → Bool
  | digit | notDigit | whitespace | notWhitespace | newline | tab | word | notWord => true
  | _ => false

theorem mem_all (k : Token) : k ∈ all := by
  cases k <;> decide

theorem unit_injective {k l : Token} (h : k.unit = l.unit) : k = l := by
  revert h
  cases k <;> cases l <;> decide

theorem ofUnit?_unit (k : Token) : ofUnit? k.unit = some k := by
  cases k <;> decide

theorem ofUnit?_eq_some_iff {u : SourceUnit} {k : Token} : ofUnit? u = some k ↔ u = k.unit := by
  constructor
  · intro h
    have := List.find?_some h
    exact (eq_of_beq this).symm
  · rintro rfl
    exact ofUnit?_unit k

theorem ofName?_name (k : Token) : ofName? k.name = some k := by
  cases k <;> decide

theorem ofSequence?_sequence (k : Token) : ofSequence? k.sequence = some k := by
  cases k <;> decide

theorem classShorthand_unit {k : Token} (h : k.classShorthand = true) :
    ∃ c, k.unit = .escaped c := by
  cases k <;> first | exact ⟨_, rfl⟩ | cases h

end Token

end FluentRegex
