import FluentRegex.Proofs.SetRebuilding

/-!
What the body of a set has become once its chain has been run. A body given as text comes back
escaped, and so unchanged exactly if it is escaped already. A body that goes through a callback
comes back as its normal form escaped, in which bounds are plain decimals and stray delimiters have
a backslash. The normal form has the same windows before its hyphens as the body, so each hyphen can
be followed to its place in the set that is built.
-/

namespace FluentRegex

open Source Escape

/-! ### Bodies given as text -/

theorem Writes.iff_eq {cs : List Call} {s t : Text} (hs : Writes cs s) : Writes cs t ↔ s = t := by
  constructor
  · intro ht
    have := (hs {}).symm.trans (ht {})
    simpa [Builder.append] using this
  · rintro rfl
    exact hs

/-- The text of a body is escaped as the body itself is, so a set that is given as text is written
with its body unchanged exactly if escaping changes nothing in it. -/
theorem Chain.set_setText (t : Text) :
    Escape.set false (setText [] (ofText t)) = Escape.set false t ∧
    ∀ negated, (setCall negated (ofText t)).body? = none →
      (Writes [setCall negated (ofText t)]
          ((Enclosure.set negated).opener ++ t ++ (Enclosure.set negated).closer) ↔
        Escape.set false t = t) := by
  have hset : Escape.set false (setText [] (ofText t)) = Escape.set false t := by
    obtain ⟨vs, hv, hs, hp⟩ := setText_spec [] (ofText t)
    have hvs : ofText vs.text = vs := hp (proper_ofText t)
    rw [Escape.set, hv, hvs, hs.setUnits_eq rfl, Escape.set]
  refine ⟨hset, fun negated hn => ?_⟩
  have hc : setCall negated (ofText t) =
      .plain (.enclose (.set negated)) [.text (setText [] (ofText t))] := by
    rw [setCall] at hn ⊢
    split at hn
    · cases hn
    · next hh => rw [if_neg hh]
  have hw := writes_text (.set negated) (setText [] (ofText t))
  rw [Enclosure.wrapText, Enclosure.escapeText, hset] at hw
  rw [hc, hw.iff_eq]
  simp

/-- An escaped hyphen comes back after a range, where it is not stripped, and between other
characters, where it is. -/
theorem Chain.set_setText_hyphens :
    (setCall true (ofText "a-z\\-x\\-y\\?".toList)).body? = none ∧
    Writes [setCall true (ofText "a-z\\-x\\-y\\?".toList)] "[^a-z\\-x\\-y\\?]".toList :=
  have h : (setCall true (ofText "a-z\\-x\\-y\\?".toList)).body? = none := by decide
  ⟨h, ((set_setText _).2 true h).2 (by decide)⟩

/-! ### Bodies of callbacks -/

namespace Source

variable {u : SourceUnit} {us : Source}

/-- A delimiter is escaped, and every other unit stays. A closing bracket is not among them, as it
ends the body that it stands in. -/
def normalUnit : SourceUnit → SourceUnit
  | .plain c => if c ∈ ['(', ')', '[', '{', '}', '"'] then .escaped c else .plain c
  | .escaped c => .escaped c

/-- The normal form of the body of a set: bounds on a unit are written in plain decimal, and every
delimiter that is not part of bounds is escaped. -/
def normalBody : Source → Source
  | [] => []
  | u :: us =>
    have := (suffix_unitBounds u us).length_le
    normalUnit u :: ((unitBounds u us).1.units ++ normalBody (unitBounds u us).2)
termination_by us => us.length

@[simp] theorem normalBody_nil : normalBody [] = [] := by
  rw [normalBody]

theorem normalBody_cons (u : SourceUnit) (us : Source) :
    normalBody (u :: us) =
      normalUnit u :: ((unitBounds u us).1.units ++ normalBody (unitBounds u us).2) := by
  rw [normalBody]

theorem normalUnit_of_char {c : Char} (hc : c ∉ ['(', ')', '[', '{', '}', '"'])
    (hu : u.char = c) : normalUnit u = u := by
  subst hu
  cases u with
  | escaped d => rfl
  | plain d => exact if_neg hc

/-- Literal text escapes a closing bracket and otherwise writes units in their normal form. -/
theorem writtenUnit_eq (u : SourceUnit) :
    writtenUnit u = if u = .plain ']' then .escaped ']' else normalUnit u := by
  cases u with
  | escaped c => simp [writtenUnit_escaped, normalUnit]
  | plain c =>
    by_cases hc : isLiteralSignificant c = true
    · simp only [isLiteralSignificant, List.mem_cons, List.not_mem_nil, or_false,
        decide_eq_true_eq] at hc
      rcases hc with rfl | rfl | rfl | rfl | rfl | rfl | rfl | rfl | rfl | rfl <;> decide
    · have hw : writtenUnit (.plain c) = .plain c :=
        (writtenUnit_plain c).resolve_right fun h => hc h.1
      have hd : c ∉ [']', '(', ')', '[', '{', '}', '"'] := fun m => hc (by
        simp only [List.mem_cons, List.not_mem_nil, or_false] at m
        rcases m with rfl | rfl | rfl | rfl | rfl | rfl | rfl <;> rfl)
      rw [hw, if_neg (by simp_all), normalUnit_of_char (List.not_mem_of_not_mem_cons hd) rfl]

theorem eq_of_normalUnit {c : Char} (h : normalUnit u = .plain c) : u = .plain c := by
  cases u with
  | escaped d => cases h
  | plain d =>
    rw [normalUnit] at h
    split at h <;> cases h
    rfl

/-- Escaping puts back what the normal form lacks of the written units: the backslash of a closing
bracket. -/
theorem stripped_normalBody (before : Text) (us : Source) :
    Stripped true before (normalBody us) (flatRebuilt us) := by
  induction us using unitInduction generalizing before with
  | nil => simpa using Stripped.nil before
  | cons u us ih =>
    rw [normalBody_cons, flatRebuilt_cons, writtenUnit_eq]
    split
    · next hu =>
      subst hu
      exact .significant rfl (stripped_append_left _ (ih _))
    · exact .keep _ (stripped_append_left _ (ih _))

theorem proper_normalBody (h : Proper us) : Proper (normalBody us) := by
  induction us using unitInduction with
  | nil => simp
  | cons u us ih =>
    obtain ⟨hu, hus⟩ := proper_cons.1 h
    rw [normalBody_cons, proper_cons]
    constructor
    · intro e
      rw [hu (eq_of_normalUnit e)]
      simp [unitBounds, takeRange, takeRange?]
    · rw [Proper, text_append, ofText_text_append (closed_units _),
        ih (hus.of_suffix (suffix_unitBounds u us))]

/-! ### Places in the normal form -/

theorem unitBounds_append_cons (hu : OutOfRange u) (v : SourceUnit) (us vs : Source) :
    unitBounds v (us ++ u :: vs) = ((unitBounds v us).1, (unitBounds v us).2 ++ u :: vs) := by
  rw [unitBounds, unitBounds, takeRange_append_cons hu]
  split <;> rfl

/-- A unit that is in no range splits the normal form where it splits the body. -/
theorem normalBody_append_cons (hu : OutOfRange u) (us vs : Source) :
    normalBody (us ++ u :: vs) = normalBody us ++ normalBody (u :: vs) := by
  induction us using unitInduction with
  | nil => simp
  | cons v us ih =>
    rw [List.cons_append, normalBody_cons, unitBounds_append_cons hu, ih, normalBody_cons v]
    simp

/-- A unit and its normal form leave the same window. -/
theorem window_normalUnit (u : SourceUnit) {before before' : Text}
    (h : window before = window before') :
    window ((normalUnit u).text.reverse ++ before) = window (u.text.reverse ++ before') := by
  cases u with
  | escaped c => exact window_append h _
  | plain c =>
    rw [normalUnit]
    split
    · next hc =>
      have hr : isRangeLow c = false ∧ isRangeHigh c = false ∧ c ≠ '-' := by
        simp only [List.mem_cons, List.not_mem_nil, or_false] at hc
        rcases hc with rfl | rfl | rfl | rfl | rfl | rfl <;> decide
      exact (window_cons_of_not_range hr.1 hr.2.1 hr.2.2 _).trans
        (window_cons_of_not_range hr.1 hr.2.1 hr.2.2 _).symm
    · exact window_append h _

theorem window_closingBrace (t before : Text) : window ((t ++ ['}']).reverse ++ before) = {} := by
  rw [List.reverse_append]
  exact window_cons_of_not_range rfl rfl (by decide) _

/-- Bounds leave the same window as the text that they were read from. -/
theorem window_unitBounds (u : SourceUnit) (us : Source) :
    ∃ t : Text, us.text = t ++ (unitBounds u us).2.text ∧
      ∀ {before before' : Text}, window before = window before' →
        window ((unitBounds u us).1.suffix.reverse ++ before) = window (t.reverse ++ before') := by
  have unread : ∃ t : Text, us.text = t ++ us.text ∧
      ∀ {before before' : Text}, window before = window before' →
        window (Quantifier.none.suffix.reverse ++ before) = window (t.reverse ++ before') :=
    ⟨[], rfl, fun h => h⟩
  rw [unitBounds]
  split
  · unfold takeRange
    cases h : takeRange? us with
    | none => exact unread
    | some r =>
      obtain ⟨t, e, hq⟩ := of_takeRange? h
      have hs : ∃ s, r.1.suffix = s ++ ['}'] := by
        rcases hq with ⟨n, hq⟩ | ⟨low, high, hq⟩ <;> rw [hq] <;> exact ⟨_, rfl⟩
      obtain ⟨s, hs⟩ := hs
      refine ⟨'{' :: t ++ ['}'], by simp [e, text_map_plain], fun _ => ?_⟩
      rw [Option.getD_some, hs, window_closingBrace, window_closingBrace]
  · exact unread

/-- The normal form of a text leaves the same window as the text. -/
theorem window_normalBody (us : Source) {before before' : Text}
    (h : window before = window before') :
    window ((normalBody us).text.reverse ++ before) = window (us.text.reverse ++ before') := by
  induction us using unitInduction generalizing before before' with
  | nil => simpa using h
  | cons u us ih =>
    obtain ⟨t, ht, hw⟩ := window_unitBounds u us
    rw [normalBody_cons]
    simpa [ht] using ih (hw (window_normalUnit u h))

/-- The normal form of what follows a unit starts with the high end of a range just if what follows
does. -/
theorem any_isRangeHigh_normalBody (us : Source) :
    ((takeRange us).1.units ++ normalBody (takeRange us).2).text.head?.any isRangeHigh =
      us.text.head?.any isRangeHigh := by
  have h : Stripped true [] ((takeRange us).1.units ++ normalBody (takeRange us).2)
      ((takeRange us).1.units ++ flatRebuilt (takeRange us).2) :=
    stripped_append_left _ (stripped_normalBody _ _)
  rw [h.any_isRangeHigh, any_isRangeHigh_takeRange]

end Source

namespace Escape

theorem proper_setUnits {nested : Bool} {us : Source} (h : Proper us) (before : Text) :
    Proper (setUnits nested before us) := by
  induction us generalizing before with
  | nil => exact proper_nil
  | cons u us ih =>
    obtain ⟨hu, hus⟩ := proper_cons.1 h
    rw [setUnits, proper_cons]
    refine ⟨fun e => ?_, ih hus _⟩
    rw [hu (of_setUnit_eq_plain e).1]
    rfl

/-- Escaping a body answers each unit at its own place. -/
theorem getElem?_setUnits (nested : Bool) (before : Text) (us : Source) (u : SourceUnit)
    (vs : Source) :
    (setUnits nested before (us ++ u :: vs))[us.length]? =
      some (setUnit nested (us.text.reverse ++ before) vs.text.head? u) := by
  induction us generalizing before with
  | nil => rfl
  | cons v us ih =>
    rw [List.cons_append, setUnits, List.length_cons, List.getElem?_cons_succ, ih]
    simp

end Escape

/-! ### Hyphens -/

theorem Source.outOfRange_of_hyphen {u : SourceUnit} (hu : u.char = '-') : OutOfRange u := by
  rintro c rfl
  cases hu
  decide

theorem Escape.setUnit_bareHyphen (nested : Bool) (before : Text) (after : Option Char) :
    setUnit nested before after (.plain '-') =
      if isRangeHyphen before after then .plain '-' else .escaped '-' := by
  cases h : isRangeHyphen before after <;> simp [setUnit, isSetSignificant, h]

/-- A hyphen of a body has its own place in the escaped normal form, and is there what escaping the
body itself would make of it. -/
theorem Escape.getElem?_setUnits_normalBody {u : SourceUnit} (hu : u.char = '-') (xs ys : Source) :
    (setUnits true [] (normalBody (xs ++ u :: ys)))[(normalBody xs).length]? =
      some (setUnit true xs.text.reverse ys.text.head? u) := by
  have ht : Token.ofUnit? u = none := by
    cases u <;> cases hu <;> decide
  rw [normalBody_append_cons (outOfRange_of_hyphen hu), normalBody_cons,
    normalUnit_of_char (by decide) hu, getElem?_setUnits, unitBounds_of_literal ht]
  cases u with
  | escaped c => rfl
  | plain c =>
    have hw : window ((normalBody xs).text.reverse ++ []) = window (xs.text.reverse ++ []) :=
      window_normalBody xs rfl
    rw [List.append_nil xs.text.reverse] at hw
    rw [setUnit, setUnit, isRangeHyphen_congr hw (any_isRangeHigh_normalBody ys)]

/-- The calls for the body of a set can be run, and what they write is escaped as the normal form of
the body is. An escaped hyphen of the body is escaped in the set that is built, and a bare one is
bare there exactly if its neighbours in the body make it part of a range. -/
theorem Chain.set_setCalls (t : Text) :
    ∃ r : Builder, Builder.callAll {} (setCalls [] (ofText t)) = .ok r ∧
      Escape.set true r.text = Escape.set true (normalBody (ofText t)).text ∧
      (∀ xs ys : Source, ofText t = xs ++ .escaped '-' :: ys →
        (ofText (Escape.set true r.text))[(normalBody xs).length]? = some (.escaped '-')) ∧
      ∀ xs ys : Source, ofText t = xs ++ .plain '-' :: ys →
        (ofText (Escape.set true r.text))[(normalBody xs).length]? =
          some (if isRangeHyphen xs.text.reverse ys.text.head? then .plain '-'
            else .escaped '-') := by
  have hp := proper_ofText t
  have hn := proper_normalBody hp
  have hset : Escape.set true (setRebuilt [] (ofText t)).text =
      (setUnits true [] (normalBody (ofText t))).text := by
    rw [Escape.set, proper_setRebuilt [] hp, (stripped_setRebuilt [] _).setUnits_eq rfl,
      ← (stripped_normalBody [] _).setUnits_eq rfl]
  have hunits : ofText (Escape.set true (setRebuilt [] (ofText t)).text) =
      setUnits true [] (normalBody (ofText t)) := by
    rw [hset]
    exact proper_setUnits hn []
  refine ⟨⟨(setRebuilt [] (ofText t)).text⟩, writes_setCalls [] hp {}, ?_, fun xs ys e => ?_,
    fun xs ys e => ?_⟩
  · rw [hset, Escape.set, hn]
  · rw [hunits, e]
    exact getElem?_setUnits_normalBody rfl xs ys
  · rw [hunits, e, ← setUnit_bareHyphen true]
    exact getElem?_setUnits_normalBody rfl xs ys

/-- Behind bounds that are rewritten, an escaped hyphen stays escaped and one in a range bare. -/
theorem Chain.set_setCalls_hyphens :
    ofText "\\d\x7b03\x7d\\-za-f".toList =
      ofText "\\d\x7b03\x7d".toList ++ .escaped '-' :: ofText "za-f".toList ∧
    ofText "\\d\x7b03\x7d\\-za-f".toList =
      ofText "\\d\x7b03\x7d\\-za".toList ++ .plain '-' :: ofText "f".toList ∧
    ∃ r : Builder,
      Builder.callAll {} (setCalls [] (ofText "\\d\x7b03\x7d\\-za-f".toList)) = .ok r ∧
      (ofText (Escape.set true r.text))[4]? = some (.escaped '-') ∧
      (ofText (Escape.set true r.text))[7]? = some (.plain '-') := by
  have he : ofText "\\d\x7b03\x7d\\-za-f".toList =
      ofText "\\d\x7b03\x7d".toList ++ .escaped '-' :: ofText "za-f".toList := by decide
  have hb : ofText "\\d\x7b03\x7d\\-za-f".toList =
      ofText "\\d\x7b03\x7d\\-za".toList ++ .plain '-' :: ofText "f".toList := by decide
  obtain ⟨r, hr, -, hescaped, hbare⟩ := set_setCalls "\\d\x7b03\x7d\\-za-f".toList
  refine ⟨he, hb, r, hr, ?_, ?_⟩
  · have := hescaped _ _ he
    rwa [show (normalBody (ofText "\\d\x7b03\x7d".toList)).length = 4 by decide +kernel] at this
  · have := hbare _ _ hb
    rwa [show (normalBody (ofText "\\d\x7b03\x7d\\-za".toList)).length = 7 by decide +kernel]
      at this

end FluentRegex
