import FluentRegex.Chain
import FluentRegex.Escape
import FluentRegex.Source.Range
import FluentRegex.Source.Delimited

/-!
The chain of a pattern source. Every source has one: what is not a token, a group or a set is
literal text. A range binds to the token or the single unit before it, and literal text is split
there. The body of a set becomes a callback when it holds a class shorthand, and a text otherwise.
-/

namespace FluentRegex.Chain

structure Literal where
  text : Text
  bounds : Quantifier := .none
  deriving DecidableEq, Repr

namespace Literal

def call (l : Literal) : Call :=
  .plain .literal (.text l.text :: l.bounds.arguments)

/-- The text that the call of the literal adds to a pattern. -/
def written (l : Literal) : Text :=
  Escape.literals l.text ++ l.bounds.suffix

/-- A run of literal text whose last piece is split off to carry bounds of its own. -/
def split (run last : Text) (bounds : Quantifier) : List Literal :=
  if run.isEmpty then [⟨last, bounds⟩] else [⟨run, .none⟩, ⟨last, bounds⟩]

end Literal

/-- How literal text is read: what one unit adds to the text, given the text of the run so far and
the units after it, and which unit ends a run. -/
structure LiteralRule where
  piece : Text → SourceUnit → Source → Text
  ends : SourceUnit → Bool

/-- A run of literal text from the unit `u` on, when `run` has been read of it, and the source
after it. The first unit is always taken. Bounds, or a question mark, bind to the last unit
alone. -/
def literalRun (rule : LiteralRule) (run : Text) (u : SourceUnit) (us : Source) :
    List Literal × Source :=
  let piece := rule.piece run u us
  match Source.takeRange? us with
  | some (bounds, rest) => (Literal.split run piece bounds, rest)
  | none =>
    match us with
    | [] => ([⟨run ++ piece, .none⟩], [])
    | v :: vs =>
      if v = .plain '?' then (Literal.split run piece .none, us)
      else if rule.ends v then ([⟨run ++ piece, .none⟩], us)
      else literalRun rule (run ++ piece) v vs

theorem length_literalRun_le (rule : LiteralRule) (run : Text) (u : SourceUnit) (us : Source) :
    (literalRun rule run u us).2.length ≤ us.length := by
  fun_induction literalRun rule run u us with
  | case1 run u us _ bounds rest h => exact Nat.le_of_lt (Source.length_of_takeRange? h)
  | case2 => simp
  | case3 => simp
  | case4 => simp
  | case5 run u _ v vs _ _ _ ih => simp; omega

/-- A token at the start of the source with the bounds it takes, and the source after them. -/
def tokenBounds (k : Token) (us : Source) : Quantifier × Source :=
  if k.quantifiable then Source.takeRange us else (.none, us)

theorem length_tokenBounds_le (k : Token) (us : Source) :
    (tokenBounds k us).2.length ≤ us.length := by
  unfold tokenBounds
  split
  · exact Source.length_takeRange_le us
  · simp

/-- The text of an escape pair that literal text holds: the bare character where writing literal
text escapes it again. -/
def literalPiece : SourceUnit → Text
  | .escaped c => if Escape.isLiteralSignificant c then [c] else ['\\', c]
  | .plain c => [c]

/-- The text of an escaped hyphen in a set: it keeps its backslash where a bare hyphen would read
as part of a range. -/
def hyphenPiece (before : Text) (after : Option Char) : Text :=
  if Escape.isRangeHyphen before after then ['\\', '-'] else ['-']

def outerLiterals : LiteralRule where
  piece _ u _ := literalPiece u
  ends u := (Token.ofUnit? u).isSome || u == .plain '(' || u == .plain '['

/-- Literal text inside a set, when `written` is the text that the calls before it write. -/
def setLiterals (written : Text) : LiteralRule where
  piece run u us :=
    if u = .escaped '-' then
      hyphenPiece (written ++ Escape.literals run).reverse (Source.text us).head?
    else literalPiece u
  ends u := (Token.ofUnit? u).isSome

/-- One step through the body of a set, over a token or a run of literal text that starts with the
unit `u`: the calls for it, the text that they write after `written`, and the source after it. -/
def setStep (written : Text) (u : SourceUnit) (us : Source) : List Call × Text × Source :=
  match Token.ofUnit? u with
  | some k =>
    match tokenBounds k us with
    | (bounds, rest) =>
      ([.plain (.token k) bounds.arguments], written ++ k.sequence ++ bounds.suffix, rest)
  | none =>
    match literalRun (setLiterals written) [] u us with
    | (ls, rest) => (ls.map Literal.call, written ++ ls.flatMap Literal.written, rest)

theorem length_setStep_le (written : Text) (u : SourceUnit) (us : Source) :
    (setStep written u us).2.2.length ≤ us.length := by
  unfold setStep
  split
  · exact length_tokenBounds_le _ us
  · exact length_literalRun_le (setLiterals written) [] u us

/-- The calls for the body of a set, when `written` is the text that the calls before them write.
Groups and sets have no meaning there. -/
def setCalls (written : Text) : Source → List Call
  | [] => []
  | u :: us =>
    have := length_setStep_le written u us
    (setStep written u us).1 ++ setCalls (setStep written u us).2.1 (setStep written u us).2.2
termination_by us => us.length
decreasing_by simp; omega

def holdsShorthand (body : Source) : Bool :=
  body.any fun u => (Token.ofUnit? u).any Token.classShorthand

/-- The text of one unit in the body of a set that is given as text. -/
def setPiece (before : Text) (after : Option Char) : SourceUnit → Text
  | .escaped c =>
    if c = '-' then hyphenPiece before after
    else if Escape.isSetSignificant false c then [c]
    else ['\\', c]
  | .plain c => [c]

/-- The body of a set as the text from which writing a set restores it; `before` holds the text of
the units before, the nearest character first. -/
def setText (before : Text) : Source → Text
  | [] => []
  | u :: us =>
    let piece := setPiece before (Source.text us).head? u
    piece ++ setText (piece.reverse ++ before) us

def setCall (negated : Bool) (body : Source) : Call :=
  if holdsShorthand body then .callback (.enclose (.set negated)) [] (setCalls [] body)
  else .plain (.enclose (.set negated)) [.text (setText [] body)]

/-- The opening of a set: whether a caret negates it, and the source after that. -/
def setOpening : Source → Bool × Source
  | .plain '^' :: us => (true, us)
  | us => (false, us)

theorem length_setOpening_le (us : Source) : (setOpening us).2.length ≤ us.length := by
  unfold setOpening
  split <;> simp

/-- A range after a group or a set is written by a call of its own, as bounds on nothing. -/
def rangeCalls (q : Quantifier) : List Call :=
  if q.isNone then [] else [.plain .quantifiedString (.text [] :: q.arguments)]

def callsOfSource : Source → List Call
  | [] => []
  | u :: us =>
    match _ : Group.takeOpener? (u :: us) with
    | some (g, inner) =>
      let rest := (Source.takeGroup inner).2
      .callback (.enclose (.group g)) [] (callsOfSource (Source.takeGroup inner).1) ::
        (rangeCalls (Source.takeRange rest).1 ++ callsOfSource (Source.takeRange rest).2)
    | none =>
      if u = .plain '[' then
        let inner := (setOpening us).2
        let rest := (Source.takeSet inner).2
        setCall (setOpening us).1 (Source.takeSet inner).1 ::
          (rangeCalls (Source.takeRange rest).1 ++ callsOfSource (Source.takeRange rest).2)
      else
        match Token.ofUnit? u with
        | some k =>
          .plain (.token k) (tokenBounds k us).1.arguments :: callsOfSource (tokenBounds k us).2
        | none =>
          (literalRun outerLiterals [] u us).1.map Literal.call ++
            callsOfSource (literalRun outerLiterals [] u us).2
termination_by us => us.length
decreasing_by
  · rename_i h
    have := Group.length_of_takeOpener? h
    have := Source.length_takeGroup_body_le inner
    omega
  · rename_i h
    have := Group.length_of_takeOpener? h
    have := Source.length_takeGroup_rest_le inner
    have := Source.length_takeRange_le (Source.takeGroup inner).2
    omega
  · have := length_setOpening_le us
    have := Source.length_takeSet_rest_le (setOpening us).2
    have := Source.length_takeRange_le (Source.takeSet (setOpening us).2).2
    simp only [List.length_cons]
    omega
  · have := length_tokenBounds_le k us
    simp only [List.length_cons]
    omega
  · have := length_literalRun_le outerLiterals [] u us
    simp only [List.length_cons]
    omega

def ofSource (source flags : Text) : Chain where
  calls := callsOfSource (Source.ofText source)
  flags := some flags

end FluentRegex.Chain
