import FluentRegex.Proofs.Admission

/-!
Orderly sources: the bounds that a chain reads outside of sets are in order and complete, and the
bodies of sets, as they are rebuilt, have their ranges of characters in order. Of what follows
bounds only the operators at its start matter, and these are kept by rebuilding; which of them can
stand depends on what stands before them.
-/

namespace FluentRegex

open Pattern

namespace Source

variable {u : SourceUnit} {us inner : Source} {g : Group}

/-! ### Orderly sources -/

/-- The repetition operators that a source starts with. -/
def operators : Source → List Element
  | .plain '?' :: us => .optional :: operators us
  | .plain '+' :: us => .oneOrMore :: operators us
  | .plain '*' :: us => .anyNumber :: operators us
  | _ => []

/-- Bounds are in order, and what follows them only completes them, by a question mark and then a
plus sign at most. -/
def Fits (q : Quantifier) (after : Source) : Prop :=
  q = .none ∨ q.bounds.Pairwise (· ≤ ·) ∧
    operators after ∈ [[], [.optional], [.oneOrMore], [.optional, .oneOrMore]]

/-- Sources in which all bounds that a chain reads outside of sets fit, and no set is rebuilt with a
reversed range of characters. Bounds that a callback reads inside of a set are only characters of
it, and need not fit. -/
inductive Orderly : Source → Prop
  | nil : Orderly []
  | group {us inner : Source} {g : Group} (h : Group.takeOpener? us = some (g, inner))
      (body : Orderly (takeGroup inner).1)
      (fits : Fits (takeRange (takeGroup inner).2).1 (takeRange (takeGroup inner).2).2)
      (rest : Orderly (takeRange (takeGroup inner).2).2) : Orderly us
  | set {us : Source}
      (items : inOrder (Chain.rebuiltSet (takeSet (Chain.setOpening us).2).1) = true)
      (fits : Fits (takeRange (takeSet (Chain.setOpening us).2).2).1
        (takeRange (takeSet (Chain.setOpening us).2).2).2)
      (rest : Orderly (takeRange (takeSet (Chain.setOpening us).2).2).2) :
      Orderly (.plain '[' :: us)
  | unit {u : SourceUnit} {us : Source} (hg : u ≠ .plain '(') (hs : u ≠ .plain '[')
      (fits : Fits (unitBounds u us).1 (unitBounds u us).2) (rest : Orderly (unitBounds u us).2) :
      Orderly (u :: us)

def operatorUnits : Source :=
  [.plain '?', .plain '+', .plain '*']

theorem operators_of_mem (h : u ∈ operatorUnits) (us : Source) :
    operators (u :: us) = unitElement u :: operators us := by
  simp only [operatorUnits, List.mem_cons, List.not_mem_nil, or_false] at h
  rcases h with rfl | rfl | rfl <;> rfl

theorem operators_of_notMem (h : u ∉ operatorUnits) (us : Source) : operators (u :: us) = [] := by
  unfold operators
  split <;> simp_all [operatorUnits]

theorem unitBounds_of_mem (h : u ∈ operatorUnits) (us : Source) :
    unitBounds u us = (.none, us) ∧ writtenUnit u = u := by
  simp only [operatorUnits, List.mem_cons, List.not_mem_nil, or_false] at h
  rcases h with rfl | rfl | rfl <;> exact ⟨rfl, rfl⟩

theorem writtenUnit_notMem (h : u ∉ operatorUnits) : writtenUnit u ∉ operatorUnits := by
  cases u with
  | escaped c => rwa [writtenUnit_escaped]
  | plain c =>
    rcases writtenUnit_plain c with e | ⟨-, e⟩
    · rwa [e]
    · rw [e]
      simp [operatorUnits]

/-- Rebuilding keeps the operators that a source starts with. -/
theorem operators_rebuilt (us : Source) : operators (rebuilt us) = operators us := by
  induction us using sourceInduction with
  | nil => rw [rebuilt_nil]
  | group us g inner h _ _ =>
    rw [rebuilt_of_takeOpener? h, Group.eq_of_takeOpener? h]
    cases g <;> rfl
  | set us _ =>
    rw [rebuilt_set]
    cases (Chain.setOpening us).1 <;> rfl
  | unit u us hg hs ih =>
    rw [rebuilt_unit hg hs]
    by_cases hu : u ∈ operatorUnits
    · obtain ⟨hb, hw⟩ := unitBounds_of_mem hu us
      rw [hb] at ih ⊢
      rw [hw, operators_of_mem hu, operators_of_mem hu, units_none, List.nil_append, ih]
    · rw [operators_of_notMem hu, operators_of_notMem (writtenUnit_notMem hu)]

end Source

namespace Pattern

open Source

variable {us : Source} {x : Preceding}

/-- The operators can stand one after the other after `x`. -/
def Preceding.Takes : Preceding → List Element → Prop
  | _, [] => True
  | x, e :: es => ∃ y, x.next? e = some y ∧ y.Takes es

theorem takes_of_admits (h : x.Admits us) : x.Takes (operators us) := by
  induction us generalizing x with
  | nil => trivial
  | cons u us ih =>
    by_cases hu : u ∈ operatorUnits
    · rw [operators_of_mem hu]
      have ht : takeElement? u us = some (unitElement u, us) ∧ (unitElement u).nest 0 = some 0 := by
        simp only [operatorUnits, List.mem_cons, List.not_mem_nil, or_false] at hu
        rcases hu with rfl | rfl | rfl <;> exact ⟨rfl, rfl⟩
      obtain ⟨y, hy, h⟩ := (admits_cons ht.1 ht.2).1 h
      exact ⟨y, hy, ih h⟩
    · simp [operators_of_notMem hu, Preceding.Takes]

/-- Nothing can be repeated where nothing stands. -/
theorem operators_eq_nil (h : Preceding.nothing.Takes (operators us)) : operators us = [] := by
  fun_cases operators us with
  | case4 => rfl
  | _ =>
    obtain ⟨y, hy, -⟩ := h
    cases hy

theorem takes_quantifier_iff :
    Preceding.quantifier.Takes (operators us) ↔
      operators us ∈ [[], [.optional], [.oneOrMore], [.optional, .oneOrMore]] := by
  constructor
  · intro h
    fun_cases operators us with
    | case4 => simp
    | case1 us =>
      obtain ⟨y, hy, h⟩ := h
      cases hy
      fun_cases operators us with
      | case4 => simp
      | case2 us =>
        obtain ⟨y, hy, h⟩ := h
        cases hy
        simp [operators_eq_nil h]
      | _ =>
        obtain ⟨y, hy, -⟩ := h
        cases hy
    | case2 us =>
      obtain ⟨y, hy, h⟩ := h
      cases hy
      simp [operators_eq_nil h]
    | case3 us =>
      obtain ⟨y, hy, -⟩ := h
      cases hy
  · intro h
    simp only [List.mem_cons, List.not_mem_nil, or_false] at h
    rcases h with h | h | h | h <;> rw [h]
    · trivial
    · exact ⟨_, rfl, trivial⟩
    · exact ⟨_, rfl, trivial⟩
    · exact ⟨_, rfl, _, rfl, trivial⟩

end Pattern

end FluentRegex
