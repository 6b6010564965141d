import FluentRegex.Proofs.Orderly
import FluentRegex.Proofs.RoundTrip

/-!
When a pattern is accepted again after its chain has been replayed. A chain reads an accepted source
at its elements and, where it takes apart what acceptance reads as a whole, inside of them. From
everywhere it can come to, the rebuilt source is accepted exactly if the source is orderly. So the
description of a pattern can be evaluated exactly if its source is orderly.
-/

namespace FluentRegex.Pattern

open Source Escape

variable {u : SourceUnit} {us inner body rest : Source} {g : Group} {x y w : Preceding} {c : Char}
  {q : Quantifier}

/-! ### Where a chain reads an accepted source -/

/-- The characters in which a chain reads on where acceptance has read a range, an opening or
inline flags as a whole. -/
def IsMark (c : Char) : Prop :=
  c.isDigit = true ∨ c ∈ [',', '}', ':', 'i', 'm', 's']

instance : DecidablePred IsMark :=
  fun _ => inferInstanceAs (Decidable (_ ∨ _))

/-- The rest of what acceptance reads as a whole, and then what it accepts. -/
inductive Inside : Source → Prop
  | last {c : Char} {us : Source} {x : Preceding} (hc : IsMark c) (hx : x ≠ .assertion)
      (h : x.Admits us) : Inside (.plain c :: us)
  | more {c : Char} {us : Source} (hc : IsMark c) (h : Inside us) : Inside (.plain c :: us)

/-- A source that a chain can come to in an accepted one: it is at an element, or inside the braces
of a range, or at the marks of an opening. -/
inductive Reachable : Source → Prop
  | element {us : Source} {x : Preceding} (h : x.Admits us) : Reachable us
  | inside {us : Source} (h : Inside us) : Reachable us
  | marks {us : Source} (h : Inside us) : Reachable (.plain '?' :: us)

theorem IsMark.unitElement (hc : IsMark c) : unitElement (.plain c) = .atom := by
  simp only [Pattern.unitElement]
  split <;> first | rfl | exact absurd hc (by decide)

theorem IsMark.takesBounds (hc : IsMark c) : takesBounds (.plain c) = true := by
  simp only [Source.takesBounds, Option.all_eq_true]
  intro k hk
  have := Token.ofUnit?_eq_some_iff.1 hk
  cases k <;> cases this <;> first | rfl | exact absurd hc (by decide)

theorem IsMark.notMem (hc : IsMark c) : SourceUnit.plain c ∉ .plain '{' :: grouping ∧
    SourceUnit.plain c ∉ operatorUnits := by
  simp only [grouping, operatorUnits, List.mem_cons, SourceUnit.plain.injEq, List.not_mem_nil,
    or_false]
  constructor
  · rintro (rfl | rfl | rfl | rfl | rfl) <;> exact absurd hc (by decide)
  · rintro (rfl | rfl | rfl) <;> exact absurd hc (by decide)

theorem Inside.exists_mark (h : Inside us) : ∃ c vs, us = .plain c :: vs ∧ IsMark c := by
  cases h with
  | last hc | more hc => exact ⟨_, _, rfl, hc⟩

theorem Inside.operators (h : Inside us) : operators us = [] := by
  obtain ⟨c, vs, rfl, hc⟩ := h.exists_mark
  exact operators_of_notMem hc.notMem.2 vs

theorem Inside.takeRange (h : Inside us) : takeRange us = (.none, us) := by
  obtain ⟨c, vs, rfl, hc⟩ := h.exists_mark
  have hn : (SourceUnit.plain c :: vs).head? ≠ some (.plain '{') :=
    fun e => List.ne_of_not_mem_cons hc.notMem.1 (Option.some.inj e)
  rw [Source.takeRange, takeRange?_eq_none hn]
  rfl

/-- Where a chain can come to, the rebuilt source is accepted after whatever takes the operators at
its start exactly if the source is orderly. -/
def Settled (us : Source) : Prop :=
  Reachable us → ∀ x : Preceding, x.Takes (operators us) → (x.Admits (rebuilt us) ↔ Orderly us)

/-- What stands before a point when the source before it has been rebuilt: only an assertion is
still one, and what bounds are read on is an atom. -/
def Preceding.solid : Preceding → Preceding
  | .assertion => .assertion
  | _ => .atom

theorem Settled.quantifier (hs : Settled us) (h : Reachable us) :
    Preceding.quantifier.Admits (rebuilt us) ↔
      operators us ∈ [[], [.optional], [.oneOrMore], [.optional, .oneOrMore]] ∧ Orderly us := by
  rw [← takes_quantifier_iff]
  constructor
  · intro ha
    have ht := takes_of_admits ha
    rw [operators_rebuilt] at ht
    exact ⟨ht, (hs h _ ht).1 ha⟩
  · rintro ⟨ht, ho⟩
    exact (hs h _ ht).2 ho

end FluentRegex.Pattern
