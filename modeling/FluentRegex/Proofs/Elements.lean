import FluentRegex.Proofs.Acceptance
import FluentRegex.Proofs.Balancing

/-!
The elements of a pattern, taken off its source one at a time. An element is a chunk of the source
that opens or closes at most one group, just as the scan for the end of a group sees it; a set is
one up to its first bracket. A closing parenthesis further on does not change what is taken.
-/

namespace FluentRegex.Pattern

open Source

variable {u : SourceUnit} {us rest : Source} {e : Element}

/-! ### Sets -/

/-- The element that a unit is by itself, outside of openings, sets and braces. -/
def unitElement : SourceUnit → Element
  | .escaped c => if c = 'b' || c = 'B' then .assertion else .atom
  | .plain c =>
    match c with
    | ')' => .closing
    | '|' => .alternation
    | '^' => .assertion
    | '$' => .assertion
    | '?' => .optional
    | '+' => .oneOrMore
    | '*' => .anyNumber
    | _ => .atom

/-- The first element of a source that starts with the unit `u`, and the source after it. -/
def takeElement? (u : SourceUnit) (us : Source) : Option (Element × Source) :=
  if u = .plain '\\' then none
  else if u = .plain '[' then (skipSet? us).map fun rest => (.atom, rest)
  else if u = .plain '(' then some (.opening (takeOpening us).1, (takeOpening us).2)
  else if u = .plain '{' then
    match takeBraces? us with
    | some (ordered, rest) => some (.range ordered, rest)
    | none => some (.atom, us)
  else some (unitElement u, us)

theorem elements?_cons (u : SourceUnit) (us : Source) :
    elements? (u :: us) =
      (takeElement? u us).bind fun r => (elements? r.2).map (r.1 :: ·) := by
  rw [elements?.eq_def]
  cases u with
  | escaped c => simp [takeElement?, unitElement]
  | plain c =>
    simp only [takeElement?, SourceUnit.plain.injEq]
    split
    case h_2 | h_11 => split <;> simp_all
    all_goals simp_all [unitElement]

/-! ### Elements as chunks of a source -/

/-- How many groups are open after an element; none if it closes more than there are. -/
def Element.nest : Element → Nat → Option Nat
  | .opening _, n => some (n + 1)
  | .closing, 0 => none
  | .closing, n + 1 => some n
  | _, n => some n

end FluentRegex.Pattern
