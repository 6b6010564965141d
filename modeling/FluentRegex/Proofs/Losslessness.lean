import FluentRegex.Builder
import FluentRegex.Proofs.Composition
import FluentRegex.Proofs.RoundTrip

/-!
Which programs of building steps come back from the chain of their pattern. Groups always do; a set
is described by its escaped body alone, and whether a callback or a text built it is lost, so it
comes back only where both would have escaped it the same.
-/

namespace FluentRegex

open Source Escape Chain

/-! ### Tidy programs -/

/-- Whether bounds after the literal text bind to an atom of it: it is a single unit, and no
repetition operator or anchor. -/
def takesBoundsText (t : Text) : Bool :=
  match ofText t with
  | [u] => takesBounds (literalUnit u)
  | _ => false

theorem eq_of_takesBoundsText {t : Text} (h : takesBoundsText t = true) :
    ∃ u, ofText t = [u] ∧ takesBounds (literalUnit u) = true := by
  unfold takesBoundsText at h
  split at h
  · next u hu => exact ⟨u, hu, h⟩
  · cases h

namespace Step

mutual

/-- The step writes no fragment as it is, its texts do not end in unpaired backslashes, and bounds
stand only where they bind: on a token that takes them, or on an atom of literal text. -/
def Tidy : Step → Prop
  | .token k q => k.Takes q
  | .quantifiedString _ _ => False
  | .literal t q => Paired t ∧ (q = .none ∨ takesBoundsText t = true)
  | .enclose _ t => Paired t
  | .encloseSteps _ ss => AllTidy ss

def AllTidy : List Step → Prop
  | [] => True
  | s :: ss => s.Tidy ∧ AllTidy ss

end

mutual

/-- The units that a tidy step writes. -/
def units : Step → Source
  | .token k q => k.unit :: q.units
  | .quantifiedString t q => ofText t ++ q.units
  | .literal t q => (ofText t).map literalUnit ++ q.units
  | .enclose (.group g) t => enclosed (.group g) (headUnits ((ofText t).map literalUnit))
  | .enclose (.set negated) t => enclosed (.set negated) (setUnits false [] (ofText t))
  | .encloseSteps (.group g) ss => enclosed (.group g) (headUnits (allUnits ss))
  | .encloseSteps (.set negated) ss => enclosed (.set negated) (setUnits true [] (allUnits ss))

def allUnits : List Step → Source
  | [] => []
  | s :: ss => s.units ++ allUnits ss

end

end Step

/-- The escaped body of a set comes back: with a class shorthand in it, parentheses, braces and
quotes are bare only in bounds; without one, no question mark is bare. -/
def Source.Restored (body : Source) : Prop :=
  if holdsShorthand body then Flat body else SourceUnit.plain '?' ∉ body

namespace Step

mutual

/-- The body of every set that is not inside another comes back. -/
def Restored : Step → Prop
  | .enclose (.set _) t => Source.Restored (setUnits false [] (ofText t))
  | .encloseSteps (.set _) ss => Source.Restored (setUnits true [] (allUnits ss))
  | .encloseSteps (.group _) ss => AllRestored ss
  | _ => True

def AllRestored : List Step → Prop
  | [] => True
  | s :: ss => s.Restored ∧ AllRestored ss

end

/-! ### What tidy programs write -/

mutual

theorem closed_units : (s : Step) → s.Tidy → Closed s.units
  | .token k q, _ => closed_cons.2 ⟨by cases k <;> decide, Source.closed_units q⟩
  | .literal _ q, h => closed_append.2 ⟨closed_map_literalUnit h.1, Source.closed_units q⟩
  | .enclose (.group _) _, h => closed_enclosed.2 (closed_headUnits (closed_map_literalUnit h))
  | .enclose (.set _) _, h => closed_enclosed.2 (closed_setUnits h)
  | .encloseSteps (.group _) ss, h => closed_enclosed.2 (closed_headUnits (closed_allUnits ss h))
  | .encloseSteps (.set _) ss, h => closed_enclosed.2 (closed_setUnits (closed_allUnits ss h))

theorem closed_allUnits : (ss : List Step) → AllTidy ss → Closed (allUnits ss)
  | [], _ => closed_nil
  | s :: ss, h => closed_append.2 ⟨closed_units s h.1, closed_allUnits ss h.2⟩

end

mutual

theorem apply_tidy : (s : Step) → s.Tidy → (b : Builder) →
    b.apply s = .ok (b.append (text s.units))
  | .token k q, _, b => by
    simp [Builder.apply, Builder.token, Builder.quantifiedString, units, Token.sequence]
  | .literal t q, h, b => by
    have hq : (!q.isNone && decide (1 < atomCount t)) = false := by
      rcases h.2 with rfl | hq
      · rfl
      · obtain ⟨u, hu, -⟩ := eq_of_takesBoundsText hq
        simp [atomCount, hu]
    simp [Builder.apply, Builder.literal, hq, Builder.quantifiedString, units, literals]
  | .enclose (.group g) t, _, b => by
    simp only [Builder.apply, Builder.enclose, Enclosure.wrapText, Enclosure.escapeText, units,
      text_enclosed, text_headUnits, literals]
  | .enclose (.set negated) t, _, b => by
    simp only [Builder.apply, Builder.enclose, Enclosure.wrapText, Enclosure.escapeText, units,
      text_enclosed, Escape.set]
  | .encloseSteps (.group g) ss, h, b => by
    rw [Builder.apply_encloseSteps, run_tidy ss h]
    simp [Except.map, Enclosure.wrapNested, Enclosure.escapeNested, units, text_enclosed,
      text_headUnits, Builder.append]
  | .encloseSteps (.set negated) ss, h, b => by
    have hp : ofText (text (allUnits ss)) = allUnits ss := (closed_allUnits ss h).proper
    rw [Builder.apply_encloseSteps, run_tidy ss h]
    simp [Except.map, Enclosure.wrapNested, Enclosure.escapeNested, units, text_enclosed,
      Builder.append, Escape.set, hp]

/-- Tidy programs run, and add the units of their steps. -/
theorem run_tidy : (ss : List Step) → AllTidy ss → (b : Builder) →
    b.run ss = .ok (b.append (text (allUnits ss)))
  | [], _, b => by simp [allUnits, b.append_nil]
  | s :: ss, h, b => by
    rw [Builder.run_cons, apply_tidy s h.1 b]
    simp only [run_tidy ss h.2, Builder.append_append, allUnits, text_append]

end

end Step

/-! ### Sets -/

namespace Source

variable {us : Source}

/-- The escaped body of a set is canonical exactly if it comes back. -/
theorem canonicalSet_setUnits_iff {nested : Bool} (h : Closed us) :
    CanonicalSet (setUnits nested [] us) ↔ Restored (setUnits nested [] us) := by
  have he := setUnits_setUnits nested [] us
  rw [Restored]
  constructor
  · intro hc
    split
    · next hs => exact hc.flat hs
    · next hs =>
      have := hc.setUnits_eq
      rw [Bool.eq_false_iff.2 hs] at this
      exact notMem_of_setUnits_eq (by decide) this
  · intro hr
    split at hr
    · next hs =>
      refine .of_setUnits (bracket_notMem_setUnits _ _ _) (closed_setUnits h) ?_ fun _ => hr
      rw [hs]
      exact setUnits_eq_of_setUnits_eq he (.inl rfl)
    · next hs =>
      refine .of_setUnits (bracket_notMem_setUnits _ _ _) (closed_setUnits h) ?_
        fun ht => absurd ht hs
      exact setUnits_eq_of_setUnits_eq he (.inr hr)

end Source

/-! ### Steps -/

namespace Step

theorem canonical_token {k : Token} {q : Quantifier} (hk : k.Takes q) :
    Canonical (k.unit :: q.units) := by
  by_cases hb : k.quantifiable = true
  · simpa using Canonical.token q hb .nil
  · obtain rfl := hk.resolve_right hb
    exact .operator (Bool.eq_false_iff.2 hb) .nil

theorem canonical_literal {t : Text} {q : Quantifier} (h : (literal t q).Tidy) :
    Canonical (literal t q).units := by
  rcases h.2 with rfl | hq
  · simpa [units] using canonical_map_literalUnit h.1
  · obtain ⟨u, hu, hb⟩ := eq_of_takesBoundsText hq
    have hc := h.1
    rw [paired_iff_closed, hu] at hc
    have := Canonical.literalUnit (q := q) (closed_cons.1 hc).1 (.inr hb) .nil
    simpa [units, hu] using this

theorem canonical_or_enclosed : (s : Step) → s.Tidy →
    Canonical s.units ∨ ∃ e body, s.units = enclosed e body
  | .token _ _, hk => .inl (canonical_token hk)
  | .literal _ _, h => .inl (canonical_literal h)
  | .enclose (.group _) _, _ => .inr ⟨_, _, rfl⟩
  | .enclose (.set _) _, _ => .inr ⟨_, _, rfl⟩
  | .encloseSteps (.group _) _, _ => .inr ⟨_, _, rfl⟩
  | .encloseSteps (.set _) _, _ => .inr ⟨_, _, rfl⟩

theorem head_allUnits (ss : List Step) (h : AllTidy ss) :
    (allUnits ss).head? ≠ some (.plain '{') := by
  induction ss with
  | nil => simp [allUnits]
  | cons s ss ih =>
    rw [allUnits]
    rcases canonical_or_enclosed s h.1 with hc | ⟨e, body, he⟩
    · exact hc.head_append_ne (ih h.2)
    · rw [he]
      exact head_enclosed (by decide)

/-- The escaped head of a group does not decide whether its body is canonical. -/
theorem canonical_headUnits_iff (ss : List Step) (h : AllTidy ss) :
    Canonical (headUnits (allUnits ss)) ↔ Canonical (allUnits ss) := by
  refine ⟨fun hc => ?_, Canonical.headUnits⟩
  induction ss with
  | nil => exact .nil
  | cons s ss ih =>
    rw [allUnits] at hc ⊢
    by_cases hs : s.units = []
    · rw [hs] at hc ⊢
      exact ih h.2 hc
    · rw [headUnits_append hs] at hc
      rcases canonical_or_enclosed s h.1 with hu | ⟨e, body, he⟩
      · exact hu.append ((canonical_append_iff hu.headUnits (head_allUnits ss h.2)).1 hc)
      · have hh : s.units.head? ≠ some (.plain '?') := by
          simpa [he] using @head_enclosed body [] e '?' (by decide)
        rwa [headUnits_eq_self hh] at hc

mutual

theorem balanced_units : (s : Step) → s.Tidy → Balanced s.units
  | .token _ _, hk => (canonical_token hk).balanced
  | .literal _ _, h => (canonical_literal h).balanced
  | .enclose (.group g) _, h =>
    balanced_group g (balanced_headUnits (canonical_map_literalUnit h).balanced)
  | .enclose (.set negated) _, _ => balanced_set negated (bracket_notMem_setUnits _ _ _)
  | .encloseSteps (.group g) ss, h => balanced_group g (balanced_headUnits (balanced_allUnits ss h))
  | .encloseSteps (.set negated) _, _ => balanced_set negated (bracket_notMem_setUnits _ _ _)

theorem balanced_allUnits : (ss : List Step) → AllTidy ss → Balanced (allUnits ss)
  | [], _ => balanced_nil
  | s :: ss, h => (balanced_units s h.1).append (balanced_allUnits ss h.2)

end

mutual

/-- A tidy step stands in a canonical source exactly if the sets it writes come back. -/
theorem canonical_units_append_iff : (s : Step) → s.Tidy → {rest : Source} →
    rest.head? ≠ some (.plain '{') → (Canonical (s.units ++ rest) ↔ s.Restored ∧ Canonical rest)
  | .token _ _, hk, _, hr => by
    simpa [Restored, units] using canonical_append_iff (canonical_token hk) hr
  | .literal _ _, h, _, hr => by
    simpa [Restored] using canonical_append_iff (canonical_literal h) hr
  | .enclose (.group g) t, h, _, hr => by
    have hb : Canonical (headUnits ((ofText t).map literalUnit)) :=
      (canonical_map_literalUnit h).headUnits
    rw [units, canonical_group_append_iff hb.closed hb.balanced (head_headUnits _) hr]
    simp [Restored, hb]
  | .enclose (.set negated) t, h, _, hr => by
    rw [units, canonical_set_append_iff (closed_setUnits h) (bracket_notMem_setUnits _ _ _) hr,
      canonicalSet_setUnits_iff h]
    rfl
  | .encloseSteps (.group g) ss, h, _, hr => by
    rw [units, canonical_group_append_iff (closed_headUnits (closed_allUnits ss h))
      (balanced_headUnits (balanced_allUnits ss h)) (head_headUnits _) hr,
      canonical_headUnits_iff ss h, canonical_allUnits_iff ss h]
    rfl
  | .encloseSteps (.set negated) ss, h, _, hr => by
    rw [units, canonical_set_append_iff (closed_setUnits (closed_allUnits ss h))
      (bracket_notMem_setUnits _ _ _) hr, canonicalSet_setUnits_iff (closed_allUnits ss h)]
    rfl

/-- What a tidy program writes is canonical exactly if the sets it writes come back. -/
theorem canonical_allUnits_iff : (ss : List Step) → AllTidy ss →
    (Canonical (allUnits ss) ↔ AllRestored ss)
  | [], _ => ⟨fun _ => trivial, fun _ => .nil⟩
  | s :: ss, h => by
    rw [allUnits, canonical_units_append_iff s h.1 (head_allUnits ss h.2),
      canonical_allUnits_iff ss h.2]
    rfl

end

end Step

/-- The pattern of a program comes back from its description exactly if its source is canonical. For
tidy programs that is so exactly if every set comes back. -/
theorem evaluate_describe_done {steps : List Step} {b : Builder} {flags : Text} {p : Pattern}
    (hr : Builder.run {} steps = .ok b) (hd : b.done flags = .ok p) :
    (evaluate p.describe = .ok p ↔ Canonical (ofText b.text)) ∧
    (Step.AllTidy steps → (evaluate p.describe = .ok p ↔ Step.AllRestored steps)) := by
  have hs : p.source = b.text := Pattern.source_of_make hd
  have he := p.evaluate_describe_iff
  rw [hs] at he
  refine ⟨he, fun ht => ?_⟩
  rw [Step.run_tidy steps ht] at hr
  cases hr
  have hu : ofText (text (Step.allUnits steps)) = Step.allUnits steps :=
    (Step.closed_allUnits steps ht).proper
  rw [he, ← Step.canonical_allUnits_iff steps ht]
  simp [Builder.append, hu]

/-- A set whose callback writes a question mark does not come back: its description gives the
question mark as text, and a text is escaped where a callback is not. -/
theorem evaluate_describe_done_question_mark :
    ∃ (b : Builder) (p : Pattern),
      Builder.run {} [.encloseSteps (.set false) [.token .lazy .none]] = .ok b ∧
      b.done [] = .ok p ∧ p.source = "[?]".toList ∧ evaluate p.describe ≠ .ok p := by
  have hr : Builder.run {} [.encloseSteps (.set false) [.token .lazy .none]] =
      .ok ⟨"[?]".toList⟩ :=
    rfl
  have hd := Pattern.make_self ⟨"[?]".toList, Flags.empty, by decide +kernel⟩
  refine ⟨_, _, hr, hd, rfl, fun h => ?_⟩
  have hs := ((evaluate_describe_done hr hd).2 ⟨⟨.inl rfl, trivial⟩, trivial⟩).1 h
  have hq : SourceUnit.plain '?' ∉ [SourceUnit.plain '?'] := hs.1
  exact hq (by simp)

end FluentRegex
