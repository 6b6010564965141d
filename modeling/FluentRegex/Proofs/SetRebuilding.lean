import FluentRegex.Proofs.SetEscaping
import FluentRegex.Proofs.Writing

/-!
The body of a set after its chain has been run. A body with a class shorthand goes through a
callback, which writes each unit as literal text with its bounds and strips backslashes from
hyphens; any other body goes through a text, from which more backslashes are stripped. Escaping puts
them back, so the rebuilt body is the escaped one.
-/

namespace FluentRegex.Source

open Escape

/-! ### Units and their bounds -/

/-- Whether bounds after the unit are read as bounds on it. -/
def takesBounds (u : SourceUnit) : Bool :=
  (Token.ofUnit? u).all Token.quantifiable

/-- The bounds on a unit, and the source after them. -/
def unitBounds (u : SourceUnit) (us : Source) : Quantifier × Source :=
  if takesBounds u then takeRange us else (.none, us)

/-- The unit that is written for a unit: a token for itself, and literal text escaped. -/
def writtenUnit (u : SourceUnit) : SourceUnit :=
  if (Token.ofUnit? u).isSome then u else literalUnit u

theorem unitBounds_of_token {u : SourceUnit} {k : Token} (h : Token.ofUnit? u = some k)
    (us : Source) : unitBounds u us = Chain.tokenBounds k us := by
  simp [unitBounds, takesBounds, h, Chain.tokenBounds]

theorem unitBounds_of_literal {u : SourceUnit} (h : Token.ofUnit? u = none) (us : Source) :
    unitBounds u us = takeRange us := by
  simp [unitBounds, takesBounds, h]

theorem suffix_unitBounds (u : SourceUnit) (us : Source) : (unitBounds u us).2 <:+ us := by
  rw [unitBounds]
  split
  · exact suffix_takeRange us
  · exact List.suffix_refl us

theorem writtenUnit_of_literal {u : SourceUnit} (h : Token.ofUnit? u = none) :
    writtenUnit u = literalUnit u := by
  simp [writtenUnit, h]

theorem writtenUnit_of_token {u : SourceUnit} {k : Token} (h : Token.ofUnit? u = some k) :
    writtenUnit u = u := by
  simp [writtenUnit, h]

/-- A unit is written with its own character, bare or escaped. -/
theorem writtenUnit_plain (c : Char) :
    writtenUnit (.plain c) = .plain c ∨
      isLiteralSignificant c = true ∧ writtenUnit (.plain c) = .escaped c := by
  rw [writtenUnit, literalUnit]
  split_ifs with h hc
  · exact .inl rfl
  · exact .inr ⟨hc, rfl⟩
  · exact .inl rfl

theorem writtenUnit_escaped (c : Char) : writtenUnit (.escaped c) = .escaped c := by
  simp [writtenUnit]

theorem eq_of_writtenUnit {u : SourceUnit} {c : Char} (h : writtenUnit u = .plain c) :
    u = .plain c := by
  cases u with
  | escaped d => rw [writtenUnit_escaped] at h; cases h
  | plain d =>
    rcases writtenUnit_plain d with e | ⟨-, e⟩ <;> rw [e] at h
    · exact h
    · cases h

/-! ### Bodies of callbacks -/

/-- The source with every unit written with its bounds, when no group and no set is opened in it. -/
def flatRebuilt : Source → Source
  | [] => []
  | u :: us =>
    have := (suffix_unitBounds u us).length_le
    writtenUnit u :: ((unitBounds u us).1.units ++ flatRebuilt (unitBounds u us).2)
termination_by us => us.length

/-- The unit that is written for a unit inside a set: an escaped hyphen keeps its backslash where a
bare one would read as part of a range. -/
def placedUnit (before : Text) (after : Option Char) (u : SourceUnit) : SourceUnit :=
  if u = .escaped '-' then
    if isRangeHyphen before after then .escaped '-' else .plain '-'
  else writtenUnit u

/-- What the calls for the body of a set write, when `before` is the text that the calls before them
write, its last character first. -/
def setRebuilt (before : Text) : Source → Source
  | [] => []
  | u :: us =>
    have := (suffix_unitBounds u us).length_le
    let v := placedUnit before (text us).head? u
    v :: ((unitBounds u us).1.units ++
      setRebuilt ((unitBounds u us).1.suffix.reverse ++ (v.text.reverse ++ before))
        (unitBounds u us).2)
termination_by us => us.length

@[simp] theorem flatRebuilt_nil : flatRebuilt [] = [] := by
  rw [flatRebuilt]

theorem flatRebuilt_cons (u : SourceUnit) (us : Source) :
    flatRebuilt (u :: us) =
      writtenUnit u :: ((unitBounds u us).1.units ++ flatRebuilt (unitBounds u us).2) := by
  rw [flatRebuilt]

@[simp] theorem setRebuilt_nil (before : Text) : setRebuilt before [] = [] := by
  rw [setRebuilt]

theorem setRebuilt_cons (before : Text) (u : SourceUnit) (us : Source) :
    setRebuilt before (u :: us) =
      placedUnit before us.text.head? u :: ((unitBounds u us).1.units ++
        setRebuilt ((unitBounds u us).1.suffix.reverse ++
          ((placedUnit before us.text.head? u).text.reverse ++ before)) (unitBounds u us).2) := by
  rw [setRebuilt]

/-- Induction along a source by units with their bounds. -/
theorem unitInduction {P : Source → Prop} (nil : P [])
    (cons : ∀ u us, P (unitBounds u us).2 → P (u :: us)) (us : Source) : P us := by
  induction h : us.length using Nat.strongRecOn generalizing us with
  | ind n ih =>
    cases us with
    | nil => exact nil
    | cons u us =>
      have := (suffix_unitBounds u us).length_le
      exact cons u us (ih _ (by simp at h; omega) _ rfl)

/-! ### Stripped hyphens -/

theorem isRangeHigh_of_isLiteralSignificant {c : Char} (h : isLiteralSignificant c = true) :
    isRangeHigh c = false := by
  refine Bool.eq_false_iff.2 fun hh => ?_
  simp only [isRangeHigh, Bool.or_eq_true, beq_iff_eq] at hh
  rcases hh with (rfl | rfl) | rfl <;> exact absurd h (by decide)

/-- Writing a unit does not change whether it is the high end of a range. -/
theorem any_isRangeHigh_flatRebuilt (us : Source) :
    (flatRebuilt us).text.head?.any isRangeHigh = us.text.head?.any isRangeHigh := by
  cases us with
  | nil => simp
  | cons u us =>
    rw [flatRebuilt_cons]
    cases u with
    | escaped c => simp [writtenUnit_escaped]
    | plain c =>
      rcases writtenUnit_plain c with e | ⟨hc, e⟩
      · simp [e]
      · simp [e, isRangeHigh_of_isLiteralSignificant hc, show isRangeHigh '\\' = false from rfl]

theorem any_isRangeHigh_takeRange (us : Source) :
    ((takeRange us).1.units ++ flatRebuilt (takeRange us).2).text.head?.any isRangeHigh =
      us.text.head?.any isRangeHigh := by
  unfold takeRange
  cases h : takeRange? us with
  | none => simpa using any_isRangeHigh_flatRebuilt us
  | some r =>
    obtain ⟨us', rfl, -⟩ := of_takeRange? h
    simp [head?_suffix_of_takeRange? h]

theorem stripped_append_left {nested : Bool} {before : Text} {us vs : Source} (ws : Source)
    (h : Stripped nested (ws.text.reverse ++ before) us vs) :
    Stripped nested before (ws ++ us) (ws ++ vs) := by
  induction ws generalizing before with
  | nil => exact h
  | cons w ws ih => exact .keep w (ih (by simpa using h))

/-- The calls in a set strip backslashes from hyphens and nothing else. -/
theorem stripped_setRebuilt (before : Text) (us : Source) :
    Stripped true before (setRebuilt before us) (flatRebuilt us) := by
  induction us using unitInduction generalizing before with
  | nil => simpa using Stripped.nil before
  | cons u us ih =>
    rw [setRebuilt_cons, flatRebuilt_cons]
    have ht : Stripped true ((placedUnit before us.text.head? u).text.reverse ++ before)
        ((unitBounds u us).1.units ++ setRebuilt ((unitBounds u us).1.suffix.reverse ++
          ((placedUnit before us.text.head? u).text.reverse ++ before)) (unitBounds u us).2)
        ((unitBounds u us).1.units ++ flatRebuilt (unitBounds u us).2) :=
      stripped_append_left _ (by simpa using ih _)
    by_cases hu : u = .escaped '-'
    · subst hu
      by_cases hr : isRangeHyphen before (text us).head? = true
      · simp only [placedUnit, if_pos hr, if_true, writtenUnit_escaped] at ht ⊢
        exact .keep _ ht
      · simp only [placedUnit, if_neg hr, if_true, writtenUnit_escaped] at ht ⊢
        refine .hyphen ?_ ht
        rw [isRangeHyphen_congr rfl ht.any_isRangeHigh, unitBounds_of_literal (by decide),
          isRangeHyphen_congr rfl (any_isRangeHigh_takeRange us)]
        exact Bool.eq_false_iff.2 hr
    · simp only [placedUnit, if_neg hu] at ht ⊢
      exact .keep _ ht

/-! ### The calls for a callback -/

theorem placedUnit_eq_backslash {before : Text} {after : Option Char} {u : SourceUnit}
    (h : placedUnit before after u = .plain '\\') : u = .plain '\\' := by
  rw [placedUnit] at h
  split_ifs at h
  · exact absurd h (by decide)
  · exact eq_of_writtenUnit h

/-- Writing units keeps them apart from each other. -/
theorem proper_setRebuilt (before : Text) {us : Source} (h : Proper us) :
    Proper (setRebuilt before us) := by
  induction us using unitInduction generalizing before with
  | nil => simp
  | cons u us ih =>
    obtain ⟨hu, hus⟩ := proper_cons.1 h
    rw [setRebuilt_cons, proper_cons]
    constructor
    · intro e
      rw [hu (placedUnit_eq_backslash e)]
      simp [unitBounds, takeRange, takeRange?]
    · rw [Proper, text_append, ofText_text_append (closed_units _),
        ih _ (hus.of_suffix (suffix_unitBounds u us))]

end FluentRegex.Source

namespace FluentRegex.Chain

open Source Escape

theorem ofText_setLiterals (written run : Text) (u : SourceUnit) (us : Source) :
    ∃ v, ofText ((setLiterals written).piece run u us) = [v] ∧
      (v = .plain '\\' → u = .plain '\\') ∧ (Token.ofUnit? u = none →
        literalUnit v = placedUnit (written ++ literals run).reverse us.text.head? u) := by
  by_cases hu : u = .escaped '-'
  · subst hu
    simp only [setLiterals, placedUnit, hyphenPiece, if_true]
    split
    · exact ⟨.escaped '-', rfl, by simp, fun _ => rfl⟩
    · exact ⟨.plain '-', rfl, by simp, fun _ => rfl⟩
  · obtain ⟨v, hv, e, hb⟩ := ofText_literalPiece u
    refine ⟨v, by simpa [setLiterals, hu] using hv, hb, fun ht => ?_⟩
    rw [placedUnit, if_neg hu, writtenUnit_of_literal ht, e]

theorem atomCount_setLiterals (written run : Text) (u : SourceUnit) (us : Source) :
    atomCount ((setLiterals written).piece run u us) = 1 := by
  obtain ⟨v, hv, -⟩ := ofText_setLiterals written run u us
  rw [atomCount, hv]
  rfl

theorem paired_setLiterals (written run : Text) (u : SourceUnit) (us : Source)
    (hu : u ≠ .plain '\\') : Paired ((setLiterals written).piece run u us) := by
  obtain ⟨v, hv, hb, -⟩ := ofText_setLiterals written run u us
  rw [paired_iff_closed, hv]
  simpa using fun e => hu (hb e)

theorem valid_setLiterals (written run : Text) (u : SourceUnit) (us : Source) :
    ∀ l ∈ (literalRun (setLiterals written) run u us).1, l.Valid :=
  valid_literalRun (fun run u us => Nat.le_of_eq (atomCount_setLiterals written run u us)) run u us

/-- A step through a set writes units as they are placed. -/
theorem setStep_spec (written : Text) (u : SourceUnit) (us : Source) (h : Proper (u :: us)) :
    ∃ t, Writes (setStep written u us).1 t ∧ (setStep written u us).2.1 = written ++ t ∧
      (setStep written u us).2.2 <:+ us ∧
      text (setRebuilt written.reverse (u :: us)) =
        t ++ text (setRebuilt (written ++ t).reverse (setStep written u us).2.2) := by
  rw [setStep]
  cases hk : Token.ofUnit? u with
  | some k =>
    have hp : placedUnit written.reverse us.text.head? u = u := by
      rw [placedUnit, writtenUnit_of_token hk, if_neg]
      rintro rfl
      cases k <;> cases Token.ofUnit?_eq_some_iff.1 hk
    rw [setRebuilt_cons, unitBounds_of_token hk, hp, Token.ofUnit?_eq_some_iff.1 hk]
    exact ⟨k.sequence ++ (tokenBounds k us).1.suffix, writes_tokenBounds k us, by simp,
      suffix_tokenBounds k us, by simp [Token.sequence]⟩
  | none =>
    have hu : (setLiterals written).ends u = false := by simp [setLiterals, hk]
    refine ⟨_, writes_literals (valid_setLiterals written [] u us), rfl,
      suffix_literalRun _ [] u us, ?_⟩
    have hr := literalRun_spec (g := fun w vs => text (setRebuilt w.reverse vs)) (w := written)
      (paired_setLiterals written) (fun run v vs hv hvs => ?_) [] u us (by simp [Paired]) hu h
    · simpa using hr
    · obtain ⟨w, hw, -, hp⟩ := ofText_setLiterals written run v vs
      have ht : Token.ofUnit? v = none := by simpa [setLiterals] using hv
      have hl : literals ((setLiterals written).piece run v vs) =
          (placedUnit (written ++ literals run).reverse (text vs).head? v).text := by
        rw [literals, hw, List.map_singleton, hp ht]
        simp
      rw [setRebuilt_cons, unitBounds_of_literal ht, hl]
      simp

theorem writes_setCalls (written : Text) {us : Source} (h : Proper us) :
    Writes (setCalls written us) (text (setRebuilt written.reverse us)) := by
  induction hn : us.length using Nat.strongRecOn generalizing us written with
  | ind n ih =>
    cases us with
    | nil => simpa [setCalls] using writes_nil
    | cons u us =>
      obtain ⟨t, ht, hw, hs, e⟩ := setStep_spec written u us h
      have := hs.length_le
      rw [setCalls, e]
      refine ht.append ?_
      rw [← hw]
      exact ih _ (by simp at hn; omega) _ ((proper_cons.1 h).2.of_suffix hs) rfl

/-! ### Bodies given as text -/

/-- The text of a body is the body without backslashes that escaping it puts back. -/
theorem setText_spec (before : Text) (us : Source) :
    ∃ vs, setText before us = text vs ∧ Stripped false before vs us ∧ (Proper us → Proper vs) := by
  induction us generalizing before with
  | nil => exact ⟨[], rfl, .nil before, id⟩
  | cons u us ih =>
    have keep : setPiece before (text us).head? u = u.text →
        ∃ vs, setText before (u :: us) = text vs ∧ Stripped false before vs (u :: us) ∧
          (Proper (u :: us) → Proper vs) := by
      intro e
      obtain ⟨vs, hv, hs, hp⟩ := ih (u.text.reverse ++ before)
      refine ⟨u :: vs, by rw [setText, e, hv]; rfl, .keep u hs, fun h => ?_⟩
      obtain ⟨hu, hus⟩ := proper_cons.1 h
      refine proper_cons.2 ⟨fun hb => ?_, hp hus⟩
      cases hu hb
      cases hs
      rfl
    cases u with
    | plain c => exact keep rfl
    | escaped c =>
      by_cases hc : c = '-'
      · subst hc
        by_cases hr : isRangeHyphen before (text us).head? = true
        · exact keep (by simp [setPiece, hyphenPiece, hr])
        · obtain ⟨vs, hv, hs, hp⟩ := ih ('-' :: before)
          refine ⟨.plain '-' :: vs, ?_, .hyphen ?_ hs, fun h => ?_⟩
          · simp [setText, setPiece, hyphenPiece, hr, hv]
          · rw [isRangeHyphen_congr rfl hs.any_isRangeHigh]
            exact Bool.eq_false_iff.2 hr
          · exact proper_cons.2 ⟨by simp, hp (proper_cons.1 h).2⟩
      · by_cases hs : isSetSignificant false c = true
        · obtain ⟨vs, hv, hst, hp⟩ := ih (c :: before)
          refine ⟨.plain c :: vs, ?_, .significant hs hst, fun h => ?_⟩
          · simp [setText, setPiece, hc, hs, hv]
          · refine proper_cons.2 ⟨?_, hp (proper_cons.1 h).2⟩
            rintro ⟨rfl⟩
            exact absurd hs (by decide)
        · exact keep (by simp [setPiece, hc, hs])

/-! ### The call for a set -/

/-- The body of a set once it has been rebuilt. -/
def rebuiltSet (body : Source) : Source :=
  if holdsShorthand body then setUnits true [] (flatRebuilt body) else setUnits false [] body

theorem writes_setCall (negated : Bool) {body : Source} (h : Proper body) :
    Writes [setCall negated body]
      ((Enclosure.set negated).opener ++ text (rebuiltSet body) ++
        (Enclosure.set negated).closer) := by
  rw [setCall, rebuiltSet]
  split
  · have hp := proper_setRebuilt [] h
    have := writes_callback (.set negated) (writes_setCalls [] h)
    rwa [Enclosure.wrapNested, Enclosure.escapeNested, Escape.set, List.reverse_nil, hp,
      (stripped_setRebuilt [] body).setUnits_eq rfl] at this
  · obtain ⟨vs, hv, hs, hp⟩ := setText_spec [] body
    have := writes_text (.set negated) (text vs)
    rwa [Enclosure.wrapText, Enclosure.escapeText, Escape.set, hp h, hs.setUnits_eq rfl, ← hv]
      at this

end FluentRegex.Chain
