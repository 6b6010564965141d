import FluentRegex.Source

/-!
Escaping of text that a pattern takes over: literal text, the body of a set, and the head of a
group. Every pass keeps escape pairs as they are and answers one unit for each unit, so nothing
that is already escaped is escaped again.
-/

namespace FluentRegex.Escape

/-- Whether a bare character has a meaning in a pattern and is escaped in literal text. The
operators `?`, `*`, `+` and `^` are not escaped. -/
def isLiteralSignificant (c : Char) : Bool :=
  c ∈ ['|', '$', '[', ']', '(', ')', '{', '}', '.', '"']

/-- A unit of literal text, escaped where its character is structural. -/
def literalUnit : SourceUnit → SourceUnit
  | .plain c => if isLiteralSignificant c then .escaped c else .plain c
  | .escaped c => .escaped c

def literals (t : Text) : Text :=
  Source.text ((Source.ofText t).map literalUnit)

/-- The number of atoms in literal text, which is its number of units. -/
def atomCount (t : Text) : Nat :=
  (Source.ofText t).length

/-- Whether a bare character is escaped in the body of a set wherever it stands. A question mark
is, unless the body comes from a callback. -/
def isSetSignificant (nested : Bool) (c : Char) : Bool :=
  c == '[' || c == ']' || (c == '?' && !nested)

/-- The characters that usual ranges begin with. -/
def isRangeLow (c : Char) : Bool :=
  c == 'A' || c == 'a' || c == '0'

/-- The characters that usual ranges end with. -/
def isRangeHigh (c : Char) : Bool :=
  c == 'Z' || c == 'z' || c == '9'

/-- Whether a hyphen reads as part of a range: it follows the low end of a usual range, precedes a
high end, or stands just after a whole range. `before` holds the characters before the hyphen, the
nearest first, and `after` the one after it. -/
def isRangeHyphen (before : Text) (after : Option Char) : Bool :=
  before.head?.any isRangeLow || after.any isRangeHigh ||
    match before with
    | high :: hyphen :: low :: _ => isRangeHigh high && hyphen == '-' && isRangeLow low
    | _ => false

/-- One unit of the body of a set, escaped where it is structural or a hyphen outside of a range. -/
def setUnit (nested : Bool) (before : Text) (after : Option Char) : SourceUnit → SourceUnit
  | .plain c =>
    if isSetSignificant nested c then .escaped c
    else if c = '-' && !isRangeHyphen before after then .escaped c
    else .plain c
  | .escaped c => .escaped c

/-- The units of the body of a set, escaped; `before` holds the characters before them, the
nearest first. A hyphen is judged by its neighbours before any escaping. -/
def setUnits (nested : Bool) (before : Text) : Source → Source
  | [] => []
  | u :: us =>
    setUnit nested before (Source.text us).head? u ::
      setUnits nested (u.text.reverse ++ before) us

/-- The body of a set with brackets, stray hyphens and, unless it comes from a callback, question
marks escaped. -/
def set (nested : Bool) (body : Text) : Text :=
  Source.text (setUnits nested [] (Source.ofText body))

/-- The body of a group, with a question mark at its start escaped so that the opener does not
take it over. -/
def groupHead : Text → Text
  | '?' :: rest => '\\' :: '?' :: rest
  | body => body

@[simp] theorem literals_nil : literals [] = [] := rfl

@[simp] theorem literalUnit_escaped (c : Char) : literalUnit (.escaped c) = .escaped c := rfl

@[simp] theorem length_setUnits (nested : Bool) (before : Text) (us : Source) :
    (setUnits nested before us).length = us.length := by
  induction us generalizing before with
  | nil => rfl
  | cons u us ih => simp [setUnits, ih]

end FluentRegex.Escape
