import FluentRegex.Chain.Layout
import FluentRegex.Chain.OfSource
import FluentRegex.Chain.Read
import FluentRegex.Chain.Run

/-!
From a pattern to the text of a chain, and from such a text to a pattern.
-/

namespace FluentRegex

inductive EvaluationError where
  | read (e : Chain.ReadError Nat)
  | chain (e : ChainError)
  deriving DecidableEq, Repr

def EvaluationError.message : EvaluationError → Text
  | read e => e.message
  | chain e => e.message

/-- The pattern that a chain text builds. -/
def evaluate (t : Text) : Except EvaluationError Pattern :=
  match Chain.read t with
  | .error e => .error (.read e)
  | .ok c => c.toPattern.mapError .chain

def Pattern.chain (p : Pattern) : Chain :=
  Chain.ofSource p.source p.flags.text

/-- The text of the chain that builds a pattern, with one call on each line. -/
def Pattern.describe (p : Pattern) : Text :=
  p.chain.pretty

end FluentRegex
