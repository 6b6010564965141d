import FluentRegex.Text

/-!
The lines of a text. A line ends at a line feed, and a carriage return just before that feed
belongs to the ending; a last line without a feed is kept as it is, and no empty line follows a
final feed.
-/

namespace FluentRegex.Text

/-- A finished line without the carriage return of its ending. -/
def stripReturn (line : Text) : Text :=
  if line.getLast? = some '\r' then line.dropLast else line

/-- The lines of the text, when `line` has been read of the first one. -/
def linesFrom (line : Text) : Text → List Text
  | [] => if line.isEmpty then [] else [line]
  | c :: rest =>
    if c = '\n' then stripReturn line :: linesFrom [] rest else linesFrom (line ++ [c]) rest

def lines (t : Text) : List Text :=
  linesFrom [] t

@[simp] theorem lines_nil : lines [] = [] := rfl

end FluentRegex.Text
