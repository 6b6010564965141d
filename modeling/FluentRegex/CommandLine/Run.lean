import FluentRegex.Chain.Evaluate
import FluentRegex.CommandLine.Options
import FluentRegex.Text.Blank
import FluentRegex.Text.Lines

/-!
What a run of the command line writes, given its options and the inputs that it reads. Inputs are
solved one after another; one that fails is reported and the others go on.
-/

namespace FluentRegex.CommandLine

/-- What has been written to both outputs, and whether everything went well. -/
structure Outcome where
  output : Text := []
  errors : Text := []
  success : Bool := true
  deriving DecidableEq, Repr

namespace Outcome

def append (a b : Outcome) : Outcome where
  output := a.output ++ b.output
  errors := a.errors ++ b.errors
  success := a.success && b.success

def concat (outcomes : List Outcome) : Outcome :=
  outcomes.foldr append {}

def line (t : Text) : Outcome where
  output := t ++ ['\n']

end Outcome

/-- The word before every reported error, in bold red if messages are coloured. -/
def errorLabel (colored : Bool) : Text :=
  if colored then "\x1b[1;31merror:\x1b[0m".toList else "error:".toList

def report (colored : Bool) (context message : Text) : Outcome where
  errors := errorLabel colored ++ [' '] ++ context ++ ": ".toList ++ message ++ ['\n']
  success := false

/-- The pattern that a text writes. The flags of the options are for a bare source; a pattern
between slashes has its own. -/
def patternOf (o : Options) (t : Text) : Except PatternError Pattern :=
  let (source, flags) := (Pattern.splitLiteral? t).getD (t, o.flags)
  Pattern.make source flags

def describe (o : Options) (colored : Bool) (t : Text) : Outcome :=
  match patternOf o t with
  | .ok p => .line (if o.compact then p.chain.print else p.describe)
  | .error e => report colored t e.message

/-- Build the pattern of a chain text. An error is reported about the first line of the text. -/
def build (colored : Bool) (t : Text) : Outcome :=
  match evaluate t with
  | .ok p => .line p.display
  | .error e => report colored (Text.trim ((Text.lines t).headD [])) e.message

def isBlankText (t : Text) : Bool :=
  (Text.trim t).isEmpty

/-- Solve the content of one input: a single chain when building, otherwise one pattern for each
line that is not blank. -/
def solve (o : Options) (colored : Bool) (content : Text) : Outcome :=
  if o.build then build colored content
  else .concat (((Text.lines content).filter fun l => !isBlankText l).map (describe o colored))

def solveExpression (o : Options) (colored : Bool) (expression : Text) : Outcome :=
  if o.build then build colored expression else describe o colored expression

/-- Solve standard input, which must not be blank. -/
def solveInput (o : Options) (colored : Bool) (input : Option Text) : Outcome :=
  match input with
  | some t => if isBlankText t then noInput else solve o colored t
  | none => noInput
where
  /-- Nothing to solve. -/
  noInput : Outcome :=
    { errors := "No input data received. ".toList ++
        "Please provide an expression, an input file or pipe data to stdin.\n".toList,
      success := false }

/-- Solve one file, given its path and its content if it can be read. -/
def solveFile (o : Options) (colored : Bool) (path : Text) (content : Option Text) : Outcome :=
  match content with
  | some t => solve o colored t
  | none => report colored path "could not read file".toList

/-- What a run writes. Files are read only without an expression, and standard input only without
either. -/
def run (o : Options) (colored : Bool) (readFile : Text → Option Text) (input : Option Text) :
    Outcome :=
  match o.expression with
  | some t => solveExpression o colored t
  | none =>
    if o.paths.isEmpty then solveInput o colored input
    else .concat (o.paths.map fun p => solveFile o colored p (readFile p))

/-- Whether messages are coloured, given whether standard error is a terminal. -/
def Color.enabled (terminal : Bool) : Color → Bool
  | .auto => terminal
  | .always => true
  | .never => false

end FluentRegex.CommandLine
