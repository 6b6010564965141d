import FluentRegex.Proofs.Units
import Mathlib.Tactic.SplitIfs

/-!
Escaping the body of a set. Of the text before a hyphen only a window of three characters decides
what the hyphen is, and a backslash that escaping puts in leaves the window as it was. So a body
from which such backslashes are stripped is escaped to what the body itself is escaped to, and
escaping a second time changes nothing.
-/

namespace FluentRegex.Escape

open Source

/-! ### The window before a hyphen -/

/-- What matters of the text before a point: whether it ends in the low end of a usual range, in a
low end with a hyphen, or in a whole range. -/
structure Window where
  low : Bool := false
  lowHyphen : Bool := false
  range : Bool := false

def Window.push (w : Window) (c : Char) : Window where
  low := isRangeLow c
  lowHyphen := c == '-' && w.low
  range := isRangeHigh c && w.lowHyphen

/-- The window of a text, given with its last character first. -/
def window : Text → Window
  | [] => {}
  | c :: before => (window before).push c

theorem isRangeHyphen_eq (before : Text) (after : Option Char) :
    isRangeHyphen before after =
      ((window before).low || after.any isRangeHigh || (window before).range) := by
  rcases before with _ | ⟨c, _ | ⟨d, _ | ⟨e, t⟩⟩⟩ <;>
    simp [isRangeHyphen, window, Window.push, Bool.and_assoc]

theorem isRangeHyphen_congr {before before' : Text} {after after' : Option Char}
    (hb : window before = window before')
    (ha : after.any isRangeHigh = after'.any isRangeHigh) :
    isRangeHyphen before after = isRangeHyphen before' after' := by
  rw [isRangeHyphen_eq, isRangeHyphen_eq, hb, ha]

theorem window_append {before before' : Text} (h : window before = window before') (t : Text) :
    window (t ++ before) = window (t ++ before') := by
  induction t with
  | nil => exact h
  | cons c t ih => rw [List.cons_append, List.cons_append, window, window, ih]

/-- A character that is no part of a usual range makes the window blank. -/
theorem window_cons_of_not_range {c : Char} (hl : isRangeLow c = false) (hh : isRangeHigh c = false)
    (hc : c ≠ '-') (before : Text) : window (c :: before) = {} := by
  simp [window, Window.push, hl, hh, hc]

theorem window_hyphen {before : Text} (h : (window before).low = false) :
    window ('-' :: before) = {} := by
  simp [window, Window.push, h, isRangeLow, isRangeHigh]

theorem not_range_of_isSetSignificant {nested : Bool} {c : Char}
    (h : isSetSignificant nested c = true) :
    isRangeLow c = false ∧ isRangeHigh c = false ∧ c ≠ '-' := by
  simp only [isSetSignificant, Bool.or_eq_true, beq_iff_eq, Bool.and_eq_true] at h
  rcases h with (rfl | rfl) | ⟨rfl, -⟩ <;> decide

theorem setUnits_plain (nested : Bool) (before : Text) (c : Char) (us : Source) :
    setUnits nested before (.plain c :: us) =
      setUnit nested before us.text.head? (.plain c) :: setUnits nested (c :: before) us := rfl

theorem setUnits_escaped (nested : Bool) (before : Text) (c : Char) (us : Source) :
    setUnits nested before (.escaped c :: us) =
      .escaped c :: setUnits nested (c :: '\\' :: before) us := rfl

/-- Escaping a unit never takes a backslash away, and no bare character it leaves is structural. -/
theorem of_setUnit_eq_plain {nested : Bool} {before : Text} {after : Option Char} {u : SourceUnit}
    {c : Char} (h : setUnit nested before after u = .plain c) :
    u = .plain c ∧ isSetSignificant nested c = false := by
  cases u with
  | escaped d => cases h
  | plain d =>
    rw [setUnit] at h
    split_ifs at h with hs hh
    cases h
    exact ⟨rfl, Bool.eq_false_iff.2 hs⟩

/-! ### Stripped backslashes -/

/-- The units `us` are the units `vs` without some backslashes that escaping puts back when the text
`before`, given with its last character first, stands before `us`. -/
inductive Stripped (nested : Bool) : Text → Source → Source → Prop
  | nil (before : Text) : Stripped nested before [] []
  | keep {before : Text} {us vs : Source} (u : SourceUnit)
      (h : Stripped nested (u.text.reverse ++ before) us vs) :
      Stripped nested before (u :: us) (u :: vs)
  | significant {before : Text} {us vs : Source} {c : Char} (hc : isSetSignificant nested c = true)
      (h : Stripped nested (c :: before) us vs) :
      Stripped nested before (.plain c :: us) (.escaped c :: vs)
  | hyphen {before : Text} {us vs : Source}
      (hr : isRangeHyphen before us.text.head? = false)
      (h : Stripped nested ('-' :: before) us vs) :
      Stripped nested before (.plain '-' :: us) (.escaped '-' :: vs)

variable {nested : Bool} {before : Text} {us vs : Source}

/-- Stripping does not change whether a high end of a range comes next. -/
theorem Stripped.any_isRangeHigh (h : Stripped nested before us vs) :
    us.text.head?.any isRangeHigh = vs.text.head?.any isRangeHigh := by
  cases h with
  | nil => rfl
  | keep u h => cases u <;> rfl
  | significant hc h => exact (not_range_of_isSetSignificant hc).2.1
  | hyphen hr h => rfl

/-- What is stripped is put back: escaping gives the same units. -/
theorem Stripped.setUnits_eq (h : Stripped nested before us vs) {before' : Text}
    (hw : window before = window before') :
    setUnits nested before us = setUnits nested before' vs := by
  induction h generalizing before' with
  | nil => rfl
  | keep u h ih =>
    rw [setUnits, setUnits, ih (window_append hw u.text.reverse)]
    cases u with
    | plain c => simp [setUnit, isRangeHyphen_congr hw h.any_isRangeHigh]
    | escaped c => rfl
  | @significant before us vs c hc h ih =>
    obtain ⟨hl, hh, hn⟩ := not_range_of_isSetSignificant hc
    have hw' : window (c :: before) = window (c :: '\\' :: before') := by
      rw [window_cons_of_not_range hl hh hn, window_cons_of_not_range hl hh hn]
    rw [setUnits_plain, setUnits_escaped, ih hw', setUnit, if_pos hc]
  | @hyphen before us vs hr h ih =>
    have hu : setUnit nested before us.text.head? (.plain '-') = .escaped '-' := by
      simp [setUnit, hr]
    rw [isRangeHyphen_eq, Bool.or_eq_false_iff, Bool.or_eq_false_iff] at hr
    have hw' : window ('-' :: before) = window ('-' :: '\\' :: before') := by
      rw [window_hyphen hr.1.1, window_hyphen rfl]
    rw [setUnits_plain, setUnits_escaped, ih hw', hu]

theorem Stripped.refl (nested : Bool) (before : Text) (us : Source) :
    Stripped nested before us us := by
  induction us generalizing before with
  | nil => exact .nil before
  | cons u us ih => exact .keep u (ih _)

theorem setUnits_congr {before' : Text} (h : window before = window before') (us : Source) :
    setUnits nested before us = setUnits nested before' us :=
  (Stripped.refl nested before us).setUnits_eq h

/-- A body is itself stripped of what escaping puts in. -/
theorem stripped_setUnits (nested : Bool) (before : Text) (us : Source) :
    Stripped nested before us (setUnits nested before us) := by
  induction us generalizing before with
  | nil => exact .nil before
  | cons u us ih =>
    rw [setUnits]
    cases u with
    | escaped c => exact .keep _ (ih _)
    | plain c =>
      rw [setUnit]
      split_ifs with hs hh
      · exact .significant hs (ih _)
      · simp only [Bool.and_eq_true, decide_eq_true_eq, Bool.not_eq_true'] at hh
        obtain ⟨rfl, hr⟩ := hh
        exact .hyphen hr (ih _)
      · exact .keep _ (ih _)

theorem setUnits_setUnits (nested : Bool) (before : Text) (us : Source) :
    setUnits nested before (setUnits nested before us) = setUnits nested before us :=
  ((stripped_setUnits nested before us).setUnits_eq rfl).symm

end FluentRegex.Escape
