import FluentRegex.Source
import FluentRegex.Quantifier

/-!
Reading bounds in pattern source. Only `{n}` and `{low,high}` are read, with ASCII digits and
values below `2 ^ 32`; leading zeros are allowed.
-/

namespace FluentRegex.Source

/-- The plain digits that the source starts with, and the rest. -/
def takeDigits : Source → Text × Source
  | .plain c :: us =>
    if c.isDigit then
      match takeDigits us with
      | (digits, rest) => (c :: digits, rest)
    else ([], .plain c :: us)
  | us => ([], us)

/-- A bound at the start of the source, and the rest. -/
def takeBound? (us : Source) : Option (UInt32 × Source) :=
  match takeDigits us with
  | (digits, rest) => (Text.bound? digits).map fun n => (n, rest)

/-- A range at the start of the source, and the rest. -/
def takeRange? : Source → Option (Quantifier × Source)
  | .plain '{' :: us =>
    match takeBound? us with
    | some (n, .plain '}' :: rest) => some (.exactly n, rest)
    | some (low, .plain ',' :: us') =>
      match takeBound? us' with
      | some (high, .plain '}' :: rest) => some (.between low high, rest)
      | _ => none
    | _ => none
  | _ => none

/-- The range at the start of the source, or no bounds, and the rest. -/
def takeRange (us : Source) : Quantifier × Source :=
  (takeRange? us).getD (.none, us)

theorem length_takeDigits_le (us : Source) : (takeDigits us).2.length ≤ us.length := by
  fun_induction takeDigits us with
  | case1 c us h digits rest e ih => simp [e] at ih ⊢; omega
  | case2 => simp
  | case3 => simp

theorem length_of_takeBound? {us rest : Source} {n : UInt32} (h : takeBound? us = some (n, rest)) :
    rest.length ≤ us.length := by
  simp only [takeBound?, Option.map_eq_some_iff, Prod.mk.injEq] at h
  obtain ⟨_, _, _, rfl⟩ := h
  exact length_takeDigits_le us

theorem length_of_takeRange? {us rest : Source} {q : Quantifier}
    (h : takeRange? us = some (q, rest)) : rest.length < us.length := by
  unfold takeRange? at h
  split at h
  · split at h
    · next hb =>
      obtain ⟨_, rfl⟩ := by simpa using h
      have := length_of_takeBound? hb
      simp at this ⊢
      omega
    · next hb =>
      split at h
      · next hb' =>
        obtain ⟨_, rfl⟩ := by simpa using h
        have := length_of_takeBound? hb
        have := length_of_takeBound? hb'
        simp at *
        omega
      · simp at h
    · simp at h
  · simp at h

theorem length_takeRange_le (us : Source) : (takeRange us).2.length ≤ us.length := by
  unfold takeRange
  cases h : takeRange? us with
  | none => simp
  | some r => exact Nat.le_of_lt (length_of_takeRange? h)

end FluentRegex.Source
