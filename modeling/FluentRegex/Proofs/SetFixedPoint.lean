import FluentRegex.Proofs.LiteralText
import FluentRegex.Proofs.SetBodies

/-!
Escaping the body of a set, character by character. The pass judges each hyphen by its place in the
body, up to three characters back and one ahead, and the backslashes that it puts in move the
characters around later hyphens apart. The units of the escaped body are a fixed point of escaping,
and that says at once what is left bare in it: what escaping would leave bare there again.
-/

namespace FluentRegex.Escape

open Source

/-! ### One pass over the characters -/

/-- Whether the hyphen at a place of the body reads as part of a range, by the characters around
it. -/
def isRangeHyphenAt (chars : Text) (i : Nat) : Bool :=
  (1 ≤ i && chars[i - 1]?.any isRangeLow) || chars[i + 1]?.any isRangeHigh ||
    (3 ≤ i && chars[i - 3]?.any isRangeLow && chars[i - 2]? == some '-' &&
      chars[i - 1]?.any isRangeHigh)

/-- A character of an escaped body. -/
inductive Written where
  /-- A character that the body has. -/
  | own (c : Char)
  /-- A backslash that escaping puts in. -/
  | inserted

namespace Written

def char : Written → Char
  | own c => c
  | inserted => '\\'

/-- The character of the body that is written. -/
def own? : Written → Option Char
  | own c => some c
  | inserted => none

@[simp] theorem char_own (c : Char) : (own c).char = c := rfl

@[simp] theorem char_inserted : inserted.char = '\\' := rfl

@[simp] theorem own?_own (c : Char) : (own c).own? = some c := rfl

@[simp] theorem own?_inserted : inserted.own? = none := rfl

end Written

/-- Escape the body of a set in one pass over its characters, from a place on. -/
def setFrom (nested : Bool) (chars : Text) (i : Nat) : List Written :=
  if _ : i < chars.length then
    if chars[i] = '\\' then
      match chars[i + 1]? with
      | some next => .own '\\' :: .own next :: setFrom nested chars (i + 2)
      | none => .own '\\' :: setFrom nested chars (i + 1)
    else if isSetSignificant nested chars[i] then
      .inserted :: .own chars[i] :: setFrom nested chars (i + 1)
    else if chars[i] = '-' && !isRangeHyphenAt chars i then
      .inserted :: .own '-' :: setFrom nested chars (i + 1)
    else .own chars[i] :: setFrom nested chars (i + 1)
  else []
termination_by chars.length - i

theorem getElem?_next (s : Text) (c : Char) (r : Text) :
    (s ++ c :: r)[s.length + 1]? = r.head? := by
  rw [List.getElem?_append_right (Nat.le_add_right _ 1), Nat.add_sub_cancel_left,
    List.getElem?_cons_succ, List.head?_eq_getElem?]

/-- Judging a hyphen by its place is judging it by what stands before and after. -/
theorem isRangeHyphenAt_append (s : Text) (c : Char) (r : Text) :
    isRangeHyphenAt (s ++ c :: r) s.length = isRangeHyphen s.reverse r.head? := by
  rw [isRangeHyphenAt, getElem?_next]
  obtain ⟨t, rfl⟩ : ∃ t, s = List.reverse t := ⟨s.reverse, s.reverse_reverse.symm⟩
  rcases t with _ | ⟨high, _ | ⟨hyphen, _ | ⟨low, t⟩⟩⟩
  · simp [isRangeHyphen]
  · simp [isRangeHyphen]
  · simp [isRangeHyphen]
  · have hwindow : (isRangeLow low && hyphen == '-' && isRangeHigh high) =
        (isRangeHigh high && hyphen == '-' && isRangeLow low) := by
      rw [Bool.and_comm, Bool.and_assoc, Bool.and_comm (hyphen == '-')]
    simp [isRangeHyphen, hwindow]

variable {nested : Bool} {s t : Text}

theorem setFrom_length (nested : Bool) (s : Text) : setFrom nested s s.length = [] := by
  rw [setFrom, dif_neg (Nat.lt_irrefl _)]

theorem setFrom_append (nested : Bool) (s : Text) (c : Char) (t : Text) :
    setFrom nested (s ++ c :: t) s.length =
      if c = '\\' then
        match t.head? with
        | some next => .own '\\' :: .own next :: setFrom nested (s ++ c :: t) (s.length + 2)
        | none => .own '\\' :: setFrom nested (s ++ c :: t) (s.length + 1)
      else if isSetSignificant nested c then
        .inserted :: .own c :: setFrom nested (s ++ c :: t) (s.length + 1)
      else if c = '-' && !isRangeHyphen s.reverse t.head? then
        .inserted :: .own '-' :: setFrom nested (s ++ c :: t) (s.length + 1)
      else .own c :: setFrom nested (s ++ c :: t) (s.length + 1) := by
  rw [setFrom, dif_pos (by simp), getElem?_next, isRangeHyphenAt_append]
  simp only [List.getElem_append_right (Nat.le_refl _), Nat.sub_self, List.getElem_cons_zero]

/-- What the pass writes from a place on is the rest of the body escaped, and without what it has
put in it is that rest. -/
theorem setFrom_spec (nested : Bool) (s t : Text) :
    (setFrom nested (s ++ t) s.length).map Written.char =
        text (setUnits nested s.reverse (ofText t)) ∧
      (setFrom nested (s ++ t) s.length).filterMap Written.own? = t := by
  induction t using textInduction generalizing s with
  | nil => simp [setFrom_length, setUnits]
  | lone =>
    have hend := setFrom_length nested (s ++ ['\\'])
    rw [List.length_append, List.length_singleton] at hend
    have hu : setUnit nested s.reverse none (.plain '\\') = .plain '\\' := by
      cases nested <;> rfl
    rw [setFrom_append, if_pos rfl]
    simp [hend, setUnits, hu]
  | pair c t ih =>
    have ih := ih (s ++ ['\\', c])
    rw [List.append_assoc, List.length_append] at ih
    rw [setFrom_append, if_pos rfl, ofText_backslash, setUnits_escaped]
    simpa using ih
  | plain c t hc ih =>
    have ih := ih (s ++ [c])
    rw [List.append_assoc, List.length_append] at ih
    rw [setFrom_append, if_neg hc, ofText_plain hc, setUnits_plain, setUnit, text_ofText]
    split_ifs with hs hh
    · simpa [List.filterMap_cons_none Written.own?_inserted] using ih
    · obtain ⟨rfl, -⟩ : c = '-' ∧ _ := by simpa using hh
      simpa [List.filterMap_cons_none Written.own?_inserted] using ih
    · simpa using ih

/-! ### The escaped body -/

theorem ofText_set (nested : Bool) (t : Text) :
    ofText (set nested t) = setUnits nested [] (ofText t) :=
  proper_setUnits (proper_ofText t) []

theorem set_set (nested : Bool) (t : Text) : set nested (set nested t) = set nested t := by
  rw [set, ofText_set, setUnits_setUnits]
  rfl

/-- A bare character of an escaped body would be left bare once more. -/
theorem setUnit_of_bare {c : Char} {r : Text} (hc : c ≠ '\\') (h : set nested t = s ++ c :: r)
    (hs : Even (finalBackslashes s)) :
    setUnit nested s.reverse r.head? (.plain c) = .plain c := by
  have hu : ofText (set nested t) = ofText s ++ .plain c :: ofText r := by
    rw [h, ofText_append_cons hs hc]
  -- Escaping leaves all units of the escaped body as they are, so also the one at this place.
  have hfixed : setUnits nested [] (ofText (set nested t)) = ofText (set nested t) := by
    rw [ofText_set, setUnits_setUnits]
  have hplace := getElem?_setUnits nested [] (ofText s) (.plain c) (ofText r)
  rw [← hu, hfixed, hu, text_ofText, text_ofText, List.append_nil] at hplace
  simpa using hplace.symm

theorem not_bare_set {c : Char} (hc : isSetSignificant nested c = true) :
    ¬ Bare c (set nested t) := by
  have hb : c ≠ '\\' := by
    rintro rfl
    cases nested <;> cases hc
  rintro ⟨s, r, h, hs⟩
  rw [(of_setUnit_eq_plain (setUnit_of_bare hb h hs)).2] at hc
  cases hc

/-- The hyphens that escaping leaves bare are judged as before among the backslashes put in. -/
theorem isRangeHyphenAt_set {i : Nat} (hi : (set nested t)[i]? = some '-')
    (he : Even (finalBackslashes ((set nested t).take i))) :
    isRangeHyphenAt (set nested t) i = true := by
  obtain ⟨hlt, hget⟩ := List.getElem?_eq_some_iff.1 hi
  have hsplit : set nested t = (set nested t).take i ++ '-' :: (set nested t).drop (i + 1) := by
    rw [← hget, List.getElem_cons_drop, List.take_append_drop]
  have hunit := setUnit_of_bare (by decide) hsplit he
  have hat := isRangeHyphenAt_append ((set nested t).take i) '-' ((set nested t).drop (i + 1))
  rw [← hsplit, List.length_take_of_le (Nat.le_of_lt hlt)] at hat
  rw [setUnit_bareHyphen, ← hat] at hunit
  by_contra hr
  rw [if_neg hr] at hunit
  cases hunit

/-- Escaping the body of a set is one pass over its characters that puts backslashes in, and without
these what it writes is the body again. A second pass changes nothing: every hyphen that is still
bare reads as part of a range among the characters around it now, and no bracket is bare, nor is a
question mark in a body given as text. -/
theorem set_fixed_point (nested : Bool) (t : Text) :
    (setFrom nested t 0).map Written.char = set nested t ∧
    (setFrom nested t 0).filterMap Written.own? = t ∧
    set nested (set nested t) = set nested t ∧
    (∀ i : Nat, (set nested t)[i]? = some '-' →
      Even (finalBackslashes ((set nested t).take i)) →
      isRangeHyphenAt (set nested t) i = true) ∧
    ¬ Bare '[' (set nested t) ∧ ¬ Bare ']' (set nested t) ∧ ¬ Bare '?' (set false t) := by
  obtain ⟨hwritten, hown⟩ := setFrom_spec nested [] t
  exact ⟨hwritten, hown, set_set nested t, fun _ => isRangeHyphenAt_set, not_bare_set rfl,
    not_bare_set rfl, not_bare_set rfl⟩

/-- Of the hyphens before, in and after a range, the second and the third stay bare. -/
theorem set_fixed_point_hyphens :
    Escape.set false "x-a-z-y".toList = "x\\-a-z-y".toList ∧
    (Escape.set false "x-a-z-y".toList)[6]? = some '-' ∧
    Even (finalBackslashes ((Escape.set false "x-a-z-y".toList).take 6)) ∧
    isRangeHyphenAt (Escape.set false "x-a-z-y".toList) 6 = true := by
  have hi : (Escape.set false "x-a-z-y".toList)[6]? = some '-' := by decide
  have he : Even (finalBackslashes ((Escape.set false "x-a-z-y".toList).take 6)) := by decide
  exact ⟨by decide, hi, he, (set_fixed_point false "x-a-z-y".toList).2.2.2.1 6 hi he⟩

end FluentRegex.Escape
