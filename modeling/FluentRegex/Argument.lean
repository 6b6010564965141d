import FluentRegex.Quantifier
import FluentRegex.Text.Visible

/-!
The arguments of a call, and bounds given as arguments: none, an exact count, or a lower and an
upper one. That a range is in order is not checked here.
-/

namespace FluentRegex

inductive Argument where
  | number (n : UInt32)
  | text (t : Text)
  deriving DecidableEq, Repr

inductive BoundsError where
  /-- A bound is a text. -/
  | notNumber (found : Text)
  /-- There are more than two bounds. -/
  | tooMany (count : Nat)
  deriving DecidableEq, Repr

def BoundsError.message : BoundsError → Text
  | notNumber found => "quantifier expects a number, got ".toList ++ Text.visible found
  | tooMany count => "a quantifier takes at most 2 bounds, got ".toList ++ Text.numeral count

def Argument.bound : Argument → Except BoundsError UInt32
  | number n => .ok n
  | text t => .error (.notNumber t)

namespace Quantifier

/-- The bounds as arguments, in order. -/
def arguments (q : Quantifier) : List Argument :=
  q.bounds.map .number

/-- The bounds that arguments give. Their number is checked before their kind, and the lower one
before the upper one. -/
def ofArguments : List Argument → Except BoundsError Quantifier
  | [] => .ok .none
  | [a] => do
    let n ← a.bound
    return .exactly n
  | [a, b] => do
    let low ← a.bound
    let high ← b.bound
    return .between low high
  | args => .error (.tooMany args.length)

@[simp] theorem arguments_none : none.arguments = [] := rfl

@[simp] theorem arguments_exactly (n : UInt32) : (exactly n).arguments = [.number n] := rfl

@[simp] theorem arguments_between (low high : UInt32) :
    (between low high).arguments = [.number low, .number high] := rfl

@[simp] theorem isEmpty_arguments (q : Quantifier) : q.arguments.isEmpty = q.isNone := by
  obtain ⟨min, max⟩ := q
  cases min <;> cases max <;> rfl

/-- Bounds read back from their own arguments, except that a lone upper bound gains a lower one. -/
theorem ofArguments_arguments (q : Quantifier) :
    ofArguments q.arguments =
      .ok (match q with
        | ⟨.none, some high⟩ => between 0 high
        | q => q) := by
  obtain ⟨min, max⟩ := q
  cases min <;> cases max <;> rfl

end Quantifier

end FluentRegex
