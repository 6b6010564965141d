import FluentRegex.Text.Numeral

/-!
Bounds on the number of repetitions: absent, exact, or a closed range. Open ranges such as `{2,}`
have no value here and stay text.
-/

namespace FluentRegex

/-- The bounds given to a fragment. An upper bound without a lower one counts from zero. -/
structure Quantifier where
  min : Option UInt32 := none
  max : Option UInt32 := none
  deriving DecidableEq, Repr

namespace Quantifier

def none : Quantifier := {}

def exactly (n : UInt32) : Quantifier := { min := some n }

def between (low high : UInt32) : Quantifier := { min := some low, max := some high }

/-- The bounds in order, the way a call receives them. -/
def bounds : Quantifier → List UInt32
  | ⟨.none, .none⟩ => []
  | ⟨some low, .none⟩ => [low]
  | ⟨low, some high⟩ => [low.getD 0, high]

def isNone (q : Quantifier) : Bool :=
  q.min.isNone && q.max.isNone

/-- The text that a quantifier adds after a fragment: nothing, `{n}` or `{low,high}`. -/
def suffix (q : Quantifier) : Text :=
  match q.bounds with
  | [] => []
  | [n] => ['{'] ++ Text.numeral n.toNat ++ ['}']
  | low :: high :: _ => ['{'] ++ Text.numeral low.toNat ++ [','] ++ Text.numeral high.toNat ++ ['}']

@[simp] theorem bounds_none : none.bounds = [] := rfl

@[simp] theorem bounds_exactly (n : UInt32) : (exactly n).bounds = [n] := rfl

@[simp] theorem bounds_between (low high : UInt32) : (between low high).bounds = [low, high] := rfl

@[simp] theorem suffix_none : none.suffix = [] := rfl

theorem isNone_iff {q : Quantifier} : q.isNone = true ↔ q = none := by
  obtain ⟨min, max⟩ := q
  cases min <;> cases max <;> simp [isNone, none]

end Quantifier

end FluentRegex
