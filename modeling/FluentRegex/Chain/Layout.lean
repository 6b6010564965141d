import FluentRegex.Chain.Print

/-!
Chain text with one call on each line. The layout works on text alone: it cuts at the boundaries
between calls, outside of quoted text, and indents what lies between the cuts. What stands at a
cut is dropped, and a dot is put before every segment that needs one.
-/

namespace FluentRegex.Chain

/-- Whether the text is quoted at some point, and by which quote. -/
inductive Quoting where
  | outside
  | inside (quote : Char)
  /-- Just after a backslash in quoted text. -/
  | escaping (quote : Char)
  deriving DecidableEq, Repr

def Quoting.step : Quoting → Char → Quoting
  | outside, c => if isQuote c then inside c else outside
  | inside q, c => if c = '\\' then escaping q else if c = q then outside else inside q
  | escaping q, _ => inside q

/-- Whether the text before a point ends in the name of the builder; the text is given with its
last character first. -/
def endsInRoot (before : Text) : Bool :=
  root.reverse.isPrefixOf before

/-- Whether unquoted text is cut at the character `c`: at a dot after the builder or a closing
parenthesis, and at the space on either side of the calls of a body. The text before `c` is given
with its last character first. -/
def isBoundary (before : Text) (c : Char) (after : Text) : Bool :=
  if c = '.' then endsInRoot before || before.head? == some ')'
  else if c = ' ' then
    (before.head? == some '{' && root.isPrefixOf after) ||
      ((before.head? == some ')' || endsInRoot before) && after.head? == some '}')
  else false

/-- The first segment of a text and the segments after it, when `before` has been read already,
its last character first. The character at a boundary belongs to no segment. -/
def segmentsFrom (quoting : Quoting) (before : Text) : Text → Text × List Text
  | [] => ([], [])
  | c :: rest =>
    match segmentsFrom (quoting.step c) (c :: before) rest with
    | (first, others) =>
      if quoting = .outside && isBoundary before c rest then ([], first :: others)
      else (c :: first, others)

/-- The segments of a chain text: the first one and the others. -/
def segments (t : Text) : Text × List Text :=
  segmentsFrom .outside [] t

structure Line where
  depth : Nat
  text : Text
  deriving DecidableEq, Repr

/-- The end of a callback body and of the call around it. -/
def bodyEnd : Text :=
  "\x7d)".toList

/-- The lines of the segments after the first one. A body stands two levels deeper than the call
that it belongs to, and its builder one level. -/
def linesFrom (depth : Nat) : List Text → List Line
  | [] => []
  | s :: rest =>
    if s = root then ⟨depth + 1, s⟩ :: linesFrom (depth + 2) rest
    else if s = bodyEnd then ⟨depth - 2, s⟩ :: linesFrom (depth - 2) rest
    else ⟨depth, '.' :: s⟩ :: linesFrom depth rest

def lines (t : Text) : List Line :=
  match segments t with
  | (first, others) => ⟨0, first⟩ :: linesFrom 1 others

/-- An indented line: two spaces for each level. -/
def Line.print (l : Line) : Text :=
  List.replicate (2 * l.depth) ' ' ++ l.text

/-- A chain text with one call on each line. -/
def layOut (t : Text) : Text :=
  Text.join ['\n'] ((lines t).map Line.print)

def pretty (c : Chain) : Text :=
  layOut c.print

end FluentRegex.Chain
