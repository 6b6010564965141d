import FluentRegex.Proofs.Canonical
import FluentRegex.Proofs.Elements

/-!
Acceptance of a source from a point on, read one element at a time. What can be read closes groups
as the scan for the end of a group does, and what closes only the groups that it opens is read the
same whatever groups are open around it. So a group is accepted if its body is accepted by itself
and what follows is accepted after a group.
-/

namespace FluentRegex.Pattern

open Source Escape

variable {u : SourceUnit} {us rest body tail : Source} {e : Element} {x y : Preceding}
  {p q : Point} {m n : Nat} {base : List Bool} {g : Group}

/-! ### Reading -/

def Point.read? (p : Point) (us : Source) : Option Point :=
  (elements? us).bind p.run?

theorem Point.read?_cons (p : Point) (u : SourceUnit) (us : Source) :
    p.read? (u :: us) =
      (takeElement? u us).bind fun r => (p.step? r.1).bind fun q => q.read? r.2 := by
  rw [read?, elements?_cons]
  cases takeElement? u us with
  | none => rfl
  | some r =>
    cases h : elements? r.2 <;> cases h' : p.step? r.1 <;> simp [read?, run?, h, h']

/-- A step opens and closes groups as its element nests. -/
theorem length_nest_of_step? (h : p.step? e = some q) :
    e.nest p.groups.length = some q.groups.length := by
  obtain ⟨x, gs⟩ := p
  cases e with
  | opening lookaround => cases h; rfl
  | closing =>
    cases gs with
    | nil => cases h
    | cons look gs => cases h; rfl
  | range ordered => cases ordered <;> cases x <;> cases h <;> rfl
  | _ => cases x <;> cases h <;> rfl

/-- After `x`, and outside of groups, the source can stand: every element of it can stand where it
does, and no group is left open. -/
def Preceding.Admits (x : Preceding) (us : Source) : Prop :=
  ∃ y, (⟨x, []⟩ : Point).read? us = some ⟨y, []⟩

/-- What stands before the next point, after an element that opens and closes no group. -/
def Preceding.next? (x : Preceding) (e : Element) : Option Preceding :=
  ((⟨x, []⟩ : Point).step? e).map Point.preceding

theorem admits_cons (h : takeElement? u us = some (e, rest)) (he : e.nest 0 = some 0) :
    x.Admits (u :: us) ↔ ∃ y, x.next? e = some y ∧ y.Admits rest := by
  unfold Preceding.Admits Preceding.next?
  rw [Point.read?_cons, h, Option.bind_some]
  cases hs : (⟨x, []⟩ : Point).step? e with
  | none => simp
  | some p =>
    have hl : e.nest 0 = some p.groups.length := length_nest_of_step? hs
    rw [he] at hl
    obtain ⟨y, gs⟩ := p
    obtain rfl : gs = [] := List.length_eq_zero_iff.1 (by simpa using hl.symm)
    simp

/-- The units that open or close a group or a set, or escape what follows. -/
def grouping : Source :=
  [.plain '(', .plain ')', .plain '[', .plain '\\']

end FluentRegex.Pattern
