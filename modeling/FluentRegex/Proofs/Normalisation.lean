import FluentRegex.Proofs.Acceptance
import FluentRegex.Proofs.Canonical

/-!
Rebuilding normalises. Whatever the source, unless it ends in an unpaired backslash, the rebuilt
source is canonical, and so rebuilding it once more changes nothing.
-/

namespace FluentRegex

open Source

namespace Source

open Escape Chain

variable {u : SourceUnit} {us vs body rest : Source} {g : Group} {q : Quantifier}

/-! ### Class shorthands -/

theorem classShorthand_plain (c : Char) :
    (Token.ofUnit? (.plain c)).any Token.classShorthand = false := by
  refine Bool.eq_false_iff.2 fun h => ?_
  obtain ⟨k, hk, hs⟩ := (Option.any_eq_true _ _).1 h
  obtain ⟨d, hd⟩ := Token.classShorthand_unit hs
  cases (Token.ofUnit?_eq_some_iff.1 hk).trans hd

theorem holdsShorthand_map_plain (t : Text) : holdsShorthand (t.map .plain) = false := by
  simp [holdsShorthand, classShorthand_plain]

theorem holdsShorthand_append (us vs : Source) :
    holdsShorthand (us ++ vs) = (holdsShorthand us || holdsShorthand vs) := by
  simp [holdsShorthand]

theorem holdsShorthand_cons (u : SourceUnit) (us : Source) :
    holdsShorthand (u :: us) =
      ((Token.ofUnit? u).any Token.classShorthand || holdsShorthand us) := by
  simp [holdsShorthand]

theorem classShorthand_setUnit (nested : Bool) (before : Text) (after : Option Char)
    (u : SourceUnit) :
    (Token.ofUnit? (setUnit nested before after u)).any Token.classShorthand =
      (Token.ofUnit? u).any Token.classShorthand := by
  cases u with
  | escaped c => rfl
  | plain c =>
    rw [classShorthand_plain, setUnit]
    split_ifs with hs hh
    · simp only [isSetSignificant, Bool.or_eq_true, beq_iff_eq, Bool.and_eq_true] at hs
      rcases hs with (rfl | rfl) | ⟨rfl, -⟩ <;> rfl
    · simp only [Bool.and_eq_true, decide_eq_true_eq] at hh
      rw [hh.1]
      rfl
    · exact classShorthand_plain c

theorem holdsShorthand_setUnits (nested : Bool) (before : Text) (us : Source) :
    holdsShorthand (setUnits nested before us) = holdsShorthand us := by
  induction us generalizing before with
  | nil => rfl
  | cons u us ih =>
    rw [setUnits, holdsShorthand_cons, holdsShorthand_cons, ih, classShorthand_setUnit]

theorem ofUnit?_escaped_of_isLiteralSignificant {c : Char} (h : isLiteralSignificant c = true) :
    Token.ofUnit? (.escaped c) = none := by
  simp only [isLiteralSignificant, List.mem_cons, List.not_mem_nil, or_false,
    decide_eq_true_eq] at h
  rcases h with rfl | rfl | rfl | rfl | rfl | rfl | rfl | rfl | rfl | rfl <;> rfl

theorem classShorthand_writtenUnit (u : SourceUnit) :
    (Token.ofUnit? (writtenUnit u)).any Token.classShorthand =
      (Token.ofUnit? u).any Token.classShorthand := by
  cases u with
  | escaped c => rw [writtenUnit_escaped]
  | plain c =>
    rcases writtenUnit_plain c with e | ⟨hc, e⟩ <;> rw [e]
    rw [classShorthand_plain, ofUnit?_escaped_of_isLiteralSignificant hc]
    rfl

theorem holdsShorthand_unitBounds (u : SourceUnit) (us : Source) :
    holdsShorthand (unitBounds u us).2 = holdsShorthand us := by
  rw [unitBounds]
  split
  · obtain ⟨t, e⟩ := eq_of_takeRange us
    have := congrArg holdsShorthand e
    rw [holdsShorthand_append, holdsShorthand_map_plain, Bool.false_or] at this
    exact this.symm
  · rfl

theorem holdsShorthand_flatRebuilt (us : Source) :
    holdsShorthand (flatRebuilt us) = holdsShorthand us := by
  induction us using unitInduction with
  | nil => rw [flatRebuilt_nil]
  | cons u us ih =>
    rw [flatRebuilt_cons, holdsShorthand_cons, holdsShorthand_append, Quantifier.units,
      holdsShorthand_map_plain, ih, holdsShorthand_unitBounds, classShorthand_writtenUnit,
      holdsShorthand_cons, Bool.false_or]

/-! ### Bodies of sets -/

theorem bracket_notMem_setUnits (nested : Bool) (before : Text) (us : Source) :
    SourceUnit.plain ']' ∉ setUnits nested before us := by
  induction us generalizing before with
  | nil => simp [setUnits]
  | cons u us ih =>
    rw [setUnits]
    refine List.not_mem_cons_of_ne_of_not_mem (fun e => ?_) (ih _)
    cases (of_setUnit_eq_plain e.symm).2

theorem takesBounds_writtenUnit (u : SourceUnit) : takesBounds (writtenUnit u) = takesBounds u := by
  cases hk : Token.ofUnit? u with
  | some k => rw [writtenUnit_of_token hk]
  | none =>
    cases u with
    | escaped c => rw [writtenUnit_escaped]
    | plain c =>
      rcases writtenUnit_plain c with e | ⟨hc, e⟩ <;> rw [e]
      simp [takesBounds, hk, ofUnit?_escaped_of_isLiteralSignificant hc]

theorem writtenUnit_ne {c : Char} (h : isLiteralSignificant c = true)
    (ht : Token.ofUnit? (.plain c) = none) (u : SourceUnit) : writtenUnit u ≠ .plain c := by
  intro e
  cases u with
  | escaped d =>
    rw [writtenUnit_escaped] at e
    cases e
  | plain d =>
    rw [writtenUnit, literalUnit] at e
    split_ifs at e with hk hd
    · cases e
      simp [ht] at hk
    · cases e
      exact hd h

theorem flat_flatRebuilt (us : Source) : Flat (flatRebuilt us) := by
  induction us using unitInduction with
  | nil =>
    rw [flatRebuilt_nil]
    exact .nil
  | cons u us ih =>
    rw [flatRebuilt_cons]
    refine .unit _ (fun m => ?_) ?_ ih
    · simp only [structural, List.mem_cons, List.not_mem_nil, or_false] at m
      rcases m with m | m | m | m | m <;> exact writtenUnit_ne rfl rfl u m
    · rw [takesBounds_writtenUnit, unitBounds]
      split
      · exact .inr ‹_›
      · exact .inl rfl

theorem setUnits_map_plain_append {nested : Bool} {t : Text}
    (h : ∀ c ∈ t, isSetSignificant nested c = false ∧ c ≠ '-') (before : Text) (us : Source) :
    setUnits nested before (t.map .plain ++ us) =
      t.map .plain ++ setUnits nested (t.reverse ++ before) us := by
  induction t generalizing before with
  | nil => rfl
  | cons c t ih =>
    obtain ⟨hs, hc⟩ := h c (by simp)
    rw [List.map_cons, List.cons_append, setUnits_plain, ih fun d hd => h d (by simp [hd])]
    simp [setUnit, hs, hc]

/-- Written bounds are not escaped in a set. -/
theorem setUnits_units_append (nested : Bool) (before : Text) (q : Quantifier) (us : Source) :
    setUnits nested before (q.units ++ us) =
      q.units ++ setUnits nested (q.suffix.reverse ++ before) us := by
  refine setUnits_map_plain_append (fun c hc => ⟨Bool.eq_false_iff.2 fun hs => ?_, ?_⟩) before us
  · have := mem_suffix hc
    simp only [isSetSignificant, Bool.or_eq_true, beq_iff_eq, Bool.and_eq_true] at hs
    rcases hs with (rfl | rfl) | ⟨rfl, -⟩ <;> revert this <;> decide
  · rintro rfl
    have := mem_suffix hc
    revert this
    decide

theorem takesBounds_setUnit {before : Text} {after : Option Char} (h : takesBounds u = true) :
    takesBounds (setUnit true before after u) = true := by
  cases u with
  | escaped c => exact h
  | plain c =>
    rw [setUnit]
    split_ifs with hs hh
    · simp only [isSetSignificant, Bool.or_eq_true, beq_iff_eq, Bool.and_eq_true] at hs
      rcases hs with (rfl | rfl) | ⟨rfl, ⟨⟩⟩ <;> rfl
    · simp only [Bool.and_eq_true, decide_eq_true_eq] at hh
      rw [hh.1]
      rfl
    · exact h

/-- Escaping keeps a flat body flat. -/
theorem Flat.setUnits (h : Flat us) (before : Text) : Flat (setUnits true before us) := by
  induction h generalizing before with
  | nil => exact .nil
  | @unit u us q hu hq h ih =>
    rw [Escape.setUnits, setUnits_units_append]
    refine .unit q (fun m => hu ?_) (hq.imp_right takesBounds_setUnit) (ih _)
    simp only [structural, List.mem_cons, List.not_mem_nil, or_false] at m ⊢
    rcases m with m | m | m | m | m <;> simp [(of_setUnit_eq_plain m).1]

theorem closed_flatRebuilt (h : Closed us) : Closed (flatRebuilt us) := by
  induction us using unitInduction with
  | nil => rwa [flatRebuilt_nil]
  | cons u us ih =>
    obtain ⟨hu, hus⟩ := closed_cons.1 h
    rw [flatRebuilt_cons, closed_cons, closed_append]
    exact ⟨fun e => hu (eq_of_writtenUnit e), closed_units _,
      ih (hus.of_suffix (suffix_unitBounds u us))⟩

theorem canonicalSet_rebuiltSet (h : Closed body) : CanonicalSet (rebuiltSet body) := by
  rw [rebuiltSet]
  split
  · next hs =>
    have hr :=
      (holdsShorthand_setUnits true [] _).trans ((holdsShorthand_flatRebuilt body).trans hs)
    refine .of_setUnits (bracket_notMem_setUnits _ _ _) (closed_setUnits (closed_flatRebuilt h)) ?_
      fun _ => (flat_flatRebuilt body).setUnits []
    rw [hr, setUnits_setUnits]
  · next hs =>
    have hr := (holdsShorthand_setUnits false [] body).trans (Bool.eq_false_iff.2 hs)
    refine .of_setUnits (bracket_notMem_setUnits _ _ _) (closed_setUnits h) ?_
      fun ht => absurd (hr.symm.trans ht) (by simp)
    rw [hr, setUnits_setUnits]

/-! ### Groups and units -/

theorem Canonical.headUnits (h : Canonical us) : Canonical (headUnits us) := by
  cases h with
  | nil => exact .nil
  | @operator k us hk h =>
    cases k with
    | lazy => exact .ordinary .none (u := .escaped '?') rfl h
    | _ => exact .operator hk h
  | @token k us q hk h =>
    rw [headUnits_eq_self]
    · exact .token q hk h
    · cases k <;> simp_all [Token.unit, Token.quantifiable]
  | @ordinary u us q hu h =>
    rw [headUnits_eq_self]
    · exact .ordinary q hu h
    · simpa using hu.ne (by decide : '?' ∈ reserved)
  | @group body us g q hb head h =>
    rw [headUnits_eq_self]
    · exact .group g q hb head h
    · cases g <;> simp [enclosed, Enclosure.opener, Group.opener]
  | @set body us negated q hb h =>
    rw [headUnits_eq_self]
    · exact .set negated q hb h
    · cases negated <;> simp [enclosed, Enclosure.opener]

theorem head_headUnits (us : Source) : (Source.headUnits us).head? ≠ some (.plain '?') := by
  unfold Source.headUnits
  split
  · simp
  · next h =>
    intro e
    obtain ⟨vs, rfl⟩ := List.head?_eq_some_iff.1 e
    exact h vs rfl

theorem ordinary_literalUnit (hu : u ≠ .plain '\\') (ht : Token.ofUnit? u = none) :
    Ordinary (literalUnit u) := by
  cases u with
  | escaped c => exact ht
  | plain c =>
    rw [literalUnit]
    split_ifs with hc
    · exact ofUnit?_escaped_of_isLiteralSignificant hc
    · exact ordinary_plain_iff.2 ⟨fun e => hu (by rw [e]), Bool.eq_false_iff.2 hc, ht⟩

/-- A written unit with its bounds stands well before a canonical source. -/
theorem Canonical.writtenUnit (hu : u ≠ .plain '\\') (vs : Source) (h : Canonical us) :
    Canonical (writtenUnit u :: ((unitBounds u vs).1.units ++ us)) := by
  cases hk : Token.ofUnit? u with
  | none =>
    rw [writtenUnit_of_literal hk]
    exact .ordinary _ (ordinary_literalUnit hu hk) h
  | some k =>
    rw [writtenUnit_of_token hk, unitBounds_of_token hk, tokenBounds,
      Token.ofUnit?_eq_some_iff.1 hk]
    split
    · next hq => exact .token _ hq h
    · next hq => exact .operator (Bool.eq_false_iff.2 hq) h

/-! ### Sources -/

theorem closed_enclosed {e : Enclosure} : Closed (enclosed e body) ↔ Closed body := by
  have ho : Closed (e.opener.map .plain) ∧ Closed (e.closer.map .plain) := by
    rcases e with ⟨_ | _ | _ | _ | _⟩ | ⟨_ | _⟩ <;>
      exact ⟨closed_map_plain (by decide), closed_map_plain (by decide)⟩
  simp [enclosed, ho]

theorem closed_headUnits (h : Closed us) : Closed (headUnits us) := by
  unfold headUnits
  split
  · exact closed_cons.2 ⟨by simp, (closed_cons.1 h).2⟩
  · exact h

/-- The rebuilt source is canonical, unless the source ends in an unpaired backslash. -/
theorem canonical_rebuilt (h : Closed us) : Canonical (Source.rebuilt us) := by
  induction us using sourceInduction with
  | nil =>
    rw [rebuilt_nil]
    exact .nil
  | group us g inner hg ihb ihr =>
    have hi : Closed inner := h.of_suffix ⟨_, (Group.eq_of_takeOpener? hg).symm⟩
    obtain ⟨hb, hr⟩ := (cutAt_takeGroup inner).closed hi
    rw [rebuilt_of_takeOpener? hg]
    exact .group g _ (ihb hb).headUnits (head_headUnits _) (ihr (hr.of_suffix (suffix_takeRange _)))
  | set us ih =>
    have hi : Closed (setOpening us).2 := h.of_suffix ⟨_, (eq_of_setOpening us).symm⟩
    obtain ⟨hb, hr⟩ := (cutAt_takeSet (setOpening us).2).closed hi
    rw [rebuilt_set]
    exact .set _ _ (canonicalSet_rebuiltSet hb) (ih (hr.of_suffix (suffix_takeRange _)))
  | unit u us hg hs ih =>
    obtain ⟨hu, hus⟩ := closed_cons.1 h
    rw [rebuilt_unit hg hs]
    exact .writtenUnit hu us (ih (hus.of_suffix (suffix_unitBounds u us)))

theorem Canonical.closed (h : Canonical us) : Closed us := by
  induction h with
  | nil => exact closed_nil
  | @operator k us hk h ih => exact closed_cons.2 ⟨by cases k <;> decide, ih⟩
  | @token k us q hk h ih =>
    exact closed_cons.2 ⟨by cases k <;> decide, closed_append.2 ⟨closed_units q, ih⟩⟩
  | ordinary q hu h ih =>
    exact closed_cons.2 ⟨hu.ne (by decide), closed_append.2 ⟨closed_units q, ih⟩⟩
  | group g q hb head h ihb ih =>
    exact closed_append.2 ⟨closed_enclosed.2 ihb, closed_append.2 ⟨closed_units q, ih⟩⟩
  | set negated q hb h ih =>
    exact closed_append.2 ⟨closed_enclosed.2 hb.closed, closed_append.2 ⟨closed_units q, ih⟩⟩

/-- Canonical sources are those that are rebuilt as they are. -/
theorem canonical_iff : Canonical us ↔ Closed us ∧ rebuilt us = us := by
  constructor
  · exact fun h => ⟨h.closed, h.rebuilt⟩
  · rintro ⟨h, e⟩
    rw [← e]
    exact canonical_rebuilt h

instance (us : Source) : Decidable (Canonical us) :=
  decidable_of_iff _ canonical_iff.symm

end Source

/-- Rebuilding what has been rebuilt changes nothing, for any source that does not end in an
unpaired backslash; the source of a pattern never does. -/
theorem Chain.rebuild_idempotent :
    (∀ p : Pattern, Paired p.source) ∧
    ∀ source : Text, Paired source → ∀ flags : Text, ∃ t : Text,
      Builder.callAll {} (ofSource source flags).calls = .ok ⟨t⟩ ∧
      Builder.callAll {} (ofSource t flags).calls = .ok ⟨t⟩ := by
  refine ⟨Pattern.paired_source, fun source h flags => ?_⟩
  have hc : Canonical (rebuilt (ofText source)) := canonical_rebuilt h
  have hr : rebuilt (ofText (text (rebuilt (ofText source)))) = rebuilt (ofText source) := by
    rw [hc.closed.proper, hc.rebuilt]
  refine ⟨text (rebuilt (ofText source)), callAll_ofSource source flags, ?_⟩
  rw [callAll_ofSource, hr]

/-- An unknown opener, a range with leading zeros and a set that is not closed are all rewritten
once. -/
theorem Chain.rebuild_idempotent_unclosed :
    ∃ t : Text,
      Builder.callAll {} (ofSource "(?:a\x7b01\x7d[-?".toList []).calls = .ok ⟨t⟩ ∧
      Builder.callAll {} (ofSource t []).calls = .ok ⟨t⟩ :=
  rebuild_idempotent.2 _ (by decide) []

end FluentRegex
