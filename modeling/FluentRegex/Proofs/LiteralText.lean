import FluentRegex.Builder
import FluentRegex.Proofs.Bounds
import Mathlib.Algebra.Group.Nat.Even
import Mathlib.Data.List.Induction

/-!
Literal text, character by character. Escaping it and counting its atoms are two passes, each with
its own way to step over the character after a backslash, and a third cuts the text into units.
Which characters are bare is decided by the parity of the backslashes before them, so the three
agree on what an atom is. Bounds on literal text are then bounds on its one atom, with two
exceptions that the count lets through: a text without atoms, and a lone backslash.
-/

namespace FluentRegex

namespace Source

/-! ### Bare characters -/

def finalBackslashes (t : Text) : Nat :=
  (t.reverse.takeWhile (· == '\\')).length

variable {s t : Text} {c : Char}

theorem finalBackslashes_concat (t : Text) (c : Char) :
    finalBackslashes (t ++ [c]) = if c = '\\' then finalBackslashes t + 1 else 0 := by
  by_cases hc : c = '\\' <;> simp [finalBackslashes, hc]

theorem exists_of_not_paired (h : ¬ Paired t) : ∃ s, t = s ++ ['\\'] ∧ Paired s := by
  obtain ⟨us, vs, e⟩ := List.append_of_mem (not_not.1 h)
  have hp : Proper (us ++ .plain '\\' :: vs) := e ▸ proper_ofText t
  have hvs : vs = [] := (proper_cons.1 hp.right).1 rfl
  subst hvs
  refine ⟨text us, ?_, (hp.closed_of_append (by simp)).paired_text⟩
  rw [← text_ofText t, e]
  simp

theorem paired_concat : Paired (t ++ [c]) ↔ (c = '\\' → ¬ Paired t) := by
  by_cases ht : Paired t
  · rw [paired_iff_closed, ofText_append ht, ofText_singleton, closed_append, closed_cons]
    simp [ht, paired_iff_closed.1 ht]
  · obtain ⟨s, rfl, hs⟩ := exists_of_not_paired ht
    have hc : Closed (ofText (s ++ '\\' :: c :: [])) := by
      rw [ofText_append hs]
      exact closed_append.2 ⟨hs, by simp⟩
    simpa [ht, paired_iff_closed] using hc

/-- The backslashes that a text ends in pair off exactly if their number is even. -/
theorem paired_iff_even (t : Text) : Paired t ↔ Even (finalBackslashes t) := by
  induction t using List.reverseRecOn with
  | nil => simp [Paired, finalBackslashes]
  | append_singleton t c ih =>
    rw [paired_concat, finalBackslashes_concat, ih]
    by_cases hc : c = '\\'
    · simp [hc, Nat.even_add_one]
    · simp [hc]

/-- A character that an even number of backslashes stands before is a unit of its own. -/
theorem ofText_append_cons (hs : Even (finalBackslashes s)) (hc : c ≠ '\\') (t : Text) :
    ofText (s ++ c :: t) = ofText s ++ .plain c :: ofText t := by
  rw [ofText_append ((paired_iff_even s).2 hs), ofText_plain hc]

/-- The character stands in the text where no backslash escapes it. -/
def Bare (c : Char) (t : Text) : Prop :=
  ∃ s r, t = s ++ c :: r ∧ Even (finalBackslashes s)

/-- The bare characters are the plain units. -/
theorem bare_iff (hc : c ≠ '\\') : Bare c t ↔ SourceUnit.plain c ∈ ofText t := by
  constructor
  · rintro ⟨s, r, rfl, hs⟩
    simp [ofText_append_cons hs hc]
  · intro m
    obtain ⟨us, vs, e⟩ := List.append_of_mem m
    have hp : Proper (us ++ .plain c :: vs) := e ▸ proper_ofText t
    refine ⟨text us, text vs, ?_, ?_⟩
    · rw [← text_ofText t, e]
      simp
    · exact (paired_iff_even _).1 (hp.closed_of_append (by simp)).paired_text

/-- Induction along a text by escape pairs and other characters. -/
theorem textInduction {P : Text → Prop} (nil : P []) (lone : P ['\\'])
    (pair : ∀ c t, P t → P ('\\' :: c :: t)) (plain : ∀ c t, c ≠ '\\' → P t → P (c :: t))
    (t : Text) : P t := by
  fun_induction ofText t with
  | case1 => exact nil
  | case2 c rest ih => exact pair c rest ih
  | case3 c rest h ih =>
    by_cases hc : c = '\\'
    · cases rest with
      | nil => exact hc ▸ lone
      | cons d rest => exact absurd rfl (h d rest hc)
    · exact plain c rest hc ih

end Source

namespace Escape

open Source

variable {s t : Text}

/-! ### Two passes over the characters -/

/-- Escape literal text in one pass over the characters that are left of it: the character after a
backslash is passed over with the backslash. -/
def literalsFrom (escaped : Text) : Text → Text
  | [] => escaped
  | c :: chars =>
    if c = '\\' then literalsFrom (escaped ++ c :: chars.take 1) (chars.drop 1)
    else if isLiteralSignificant c then literalsFrom (escaped ++ ['\\', c]) chars
    else literalsFrom (escaped ++ [c]) chars
termination_by chars => chars.length

def atomsFrom (count : Nat) : Text → Nat
  | [] => count
  | c :: chars =>
    if c = '\\' then atomsFrom (count + 1) (chars.drop 1) else atomsFrom (count + 1) chars
termination_by chars => chars.length

theorem literalsFrom_eq (escaped t : Text) : literalsFrom escaped t = escaped ++ literals t := by
  induction t using textInduction generalizing escaped with
  | nil => simp [literalsFrom]
  | lone => simp [literalsFrom, literals, literalUnit, isLiteralSignificant]
  | pair c t ih =>
    rw [literalsFrom, if_pos rfl, List.take_succ_cons, List.drop_succ_cons, List.take_zero,
      List.drop_zero, ih]
    simp [literals]
  | plain c t hc ih =>
    rw [literalsFrom, if_neg hc, ih, ih, literals, literals, ofText_plain hc]
    by_cases hs : isLiteralSignificant c = true <;> simp [literalUnit, hs]

theorem atomsFrom_eq (count : Nat) (t : Text) : atomsFrom count t = count + atomCount t := by
  induction t using textInduction generalizing count with
  | nil => simp [atomsFrom, atomCount]
  | lone => simp [atomsFrom, atomCount]
  | pair c t ih =>
    rw [atomsFrom, if_pos rfl, List.drop_succ_cons, List.drop_zero, ih, atomCount, atomCount,
      ofText_backslash, List.length_cons]
    omega
  | plain c t hc ih =>
    rw [atomsFrom, if_neg hc, ih, atomCount, atomCount, ofText_plain hc, List.length_cons]
    omega

/-! ### Unit by unit -/

theorem eq_of_literalUnit {u : SourceUnit} {c : Char} (h : literalUnit u = .plain c) :
    u = .plain c ∧ isLiteralSignificant c = false := by
  cases u with
  | escaped d => cases h
  | plain d =>
    rw [literalUnit] at h
    split at h
    · cases h
    · next hd =>
      cases h
      exact ⟨rfl, Bool.eq_false_iff.2 hd⟩

theorem proper_map_literalUnit {us : Source} (h : Proper us) : Proper (us.map literalUnit) := by
  induction us with
  | nil => exact proper_nil
  | cons u us ih =>
    obtain ⟨hu, hus⟩ := proper_cons.1 h
    refine proper_cons.2 ⟨fun e => ?_, ih hus⟩
    rw [hu (eq_of_literalUnit e).1]
    rfl

/-- Escaping literal text answers each unit with one unit. -/
theorem ofText_literals (t : Text) : ofText (literals t) = (ofText t).map literalUnit :=
  proper_map_literalUnit (proper_ofText t)

theorem bare_literals {c : Char} (hc : isLiteralSignificant c = true) : ¬ Bare c (literals t) := by
  have hb : c ≠ '\\' := by
    rintro rfl
    exact absurd hc (by decide)
  rw [bare_iff hb, ofText_literals]
  intro m
  obtain ⟨u, -, e⟩ := List.mem_map.1 m
  rw [(eq_of_literalUnit e).2] at hc
  cases hc

/-- Literal text is left as it is exactly if no character of it is to be escaped. -/
theorem literals_eq_self_iff (t : Text) :
    literals t = t ↔ ∀ c, isLiteralSignificant c = true → ¬ Bare c t := by
  constructor
  · intro h c hc
    rw [← h]
    exact bare_literals hc
  · intro h
    have hu : ∀ u ∈ ofText t, literalUnit u = u := by
      intro u hu
      cases u with
      | escaped c => rfl
      | plain c =>
        by_cases hb : c = '\\'
        · rw [hb]
          rfl
        · exact if_neg fun hc => h c hc ((bare_iff hb).2 hu)
    rw [literals, List.map_congr_left hu, List.map_id', text_ofText]

/-- Escaping literal text and counting its atoms are each one pass over its characters, and both
passes see the units of the text: the units of the escaped text are those of the text, one for one
and in order, with a backslash before each bare character that has a meaning. So nothing is escaped
twice, and text after an even number of backslashes is escaped by itself. -/
theorem literals_unit_by_unit (t : Text) :
    literalsFrom [] t = literals t ∧
    ofText (literals t) = (ofText t).map literalUnit ∧
    literals (literals t) = literals t ∧
    (∀ c, isLiteralSignificant c = true → ¬ Bare c (literals t)) ∧
    (literals t = t ↔ ∀ c, isLiteralSignificant c = true → ¬ Bare c t) ∧
    (ofText (literals t)).length = atomsFrom 0 t ∧
    (ofText t).length = atomsFrom 0 t ∧
    atomCount t = atomsFrom 0 t ∧
    ∀ u : Text, Even (finalBackslashes t) → literals (t ++ u) = literals t ++ literals u := by
  have hatoms : atomsFrom 0 t = (ofText t).length := by
    rw [atomsFrom_eq, Nat.zero_add, atomCount]
  refine ⟨literalsFrom_eq [] t, ofText_literals t, ?_, fun _ => bare_literals,
    literals_eq_self_iff t, ?_, hatoms.symm, hatoms.symm, fun u h => ?_⟩
  · exact (literals_eq_self_iff _).2 fun _ => bare_literals
  · rw [hatoms, ofText_literals, List.length_map]
  · exact literals_append ((paired_iff_even t).2 h) u

/-- After two backslashes a parenthesis is bare, and after three it is not. -/
theorem literals_unit_by_unit_backslashes :
    isLiteralSignificant '(' = true ∧ ¬ Bare '(' (literals "\\\\(\\\\\\(\\\\".toList) ∧
    Even (finalBackslashes "\\\\(\\\\\\(\\\\".toList) ∧
    literals ("\\\\(\\\\\\(\\\\".toList ++ ".".toList) =
      literals "\\\\(\\\\\\(\\\\".toList ++ literals ".".toList := by
  have hs : isLiteralSignificant '(' = true := by decide
  have he : Even (finalBackslashes "\\\\(\\\\\\(\\\\".toList) := by decide
  obtain ⟨-, -, -, hbare, -, -, -, -, happend⟩ :=
    literals_unit_by_unit "\\\\(\\\\\\(\\\\".toList
  exact ⟨hs, hbare '(' hs, he, happend ".".toList he⟩

end Escape

/-! ### Bounds on literal text -/

namespace Builder

open Source Escape

variable {b b' : Builder} {t : Text} {q : Quantifier}

theorem isNone_eq_false (hq : q ≠ .none) : q.isNone = false :=
  Bool.eq_false_iff.2 fun h => hq (Quantifier.isNone_iff.1 h)

/-- Literal text takes bounds exactly if it has at most one atom. -/
theorem literal_eq_ok_iff (hq : q ≠ .none) :
    b.literal t q = .ok b' ↔ atomCount t ≤ 1 ∧ b' = b.append (literals t ++ q.suffix) := by
  rw [literal, isNone_eq_false hq]
  by_cases ht : 1 < atomCount t
  · simp [ht]
  · simp [ht, quantifiedString, eq_comm]
    omega

/-- A text of at most one atom is empty, a single unit, or a lone backslash. -/
theorem atom_cases (h : atomCount t ≤ 1) :
    t = [] ∨ t = ['\\'] ∨ ∃ u, u ≠ .plain '\\' ∧ ofText t = [u] := by
  rw [atomCount] at h
  cases hu : ofText t with
  | nil => exact .inl (by rw [← text_ofText t, hu]; rfl)
  | cons u us =>
    have hus : us = [] := by
      rw [hu] at h
      simpa using h
    subst hus
    by_cases hb : u = .plain '\\'
    · exact .inr (.inl (by rw [← text_ofText t, hu, hb]; rfl))
    · exact .inr (.inr ⟨u, hb, rfl⟩)

theorem suffix_eq_cons (hq : q ≠ .none) : ∃ cs, q.suffix = '{' :: cs := by
  rcases q with ⟨_ | low, _ | high⟩
  · exact absurd rfl hq
  all_goals exact ⟨_, rfl⟩

/-- What a literal with bounds adds: the units of its text, escaped, and the bounds. -/
theorem ofText_bounded {u : SourceUnit} (hu : u ≠ .plain '\\') (ht : ofText t = [u]) (rest : Text) :
    ofText (literals t ++ q.suffix ++ rest) = literalUnit u :: (q.units ++ ofText rest) := by
  have hc : Closed ((ofText t).map literalUnit ++ q.units) :=
    closed_append.2 ⟨closed_map_literalUnit (by simp [ht, hu]), closed_units q⟩
  have := ofText_text_append hc rest
  simpa [literals, ht] using this

/-- A lone backslash escapes the brace that its bounds begin with. -/
theorem ofText_bounded_backslash (hq : q ≠ .none) :
    ofText (literals ['\\'] ++ q.suffix) = .escaped '{' :: q.units.tail := by
  have hl : literals ['\\'] = ['\\'] := by decide
  obtain ⟨cs, hs⟩ := suffix_eq_cons hq
  -- The backslash takes the brace, and what is left of the bounds is read as before.
  have hcs : Closed (cs.map SourceUnit.plain) := by
    have := closed_units q
    rw [Quantifier.units, hs, List.map_cons, closed_cons] at this
    exact this.2
  have hcs := ofText_text_append hcs []
  rw [text_map_plain] at hcs
  simpa [hl, hs, Quantifier.units] using hcs

/-- Bounds follow a single unit exactly if the text is neither empty nor a lone backslash. -/
theorem exists_ofText_bounded_iff (hq : q ≠ .none) (ht : atomCount t ≤ 1) :
    (∃ u, ofText (literals t ++ q.suffix) = u :: q.units) ↔ t ≠ [] ∧ t ≠ ['\\'] := by
  rcases atom_cases ht with rfl | rfl | ⟨u, hu, hut⟩
  · have hn : ofText (literals [] ++ q.suffix) = q.units := by
      rw [literals_nil, List.nil_append, ← text_units]
      exact (closed_units q).proper
    rw [hn]
    simp
  · obtain ⟨cs, hs⟩ := suffix_eq_cons hq
    rw [ofText_bounded_backslash hq, Quantifier.units, hs]
    simp
  · have hne : t ≠ [] ∧ t ≠ ['\\'] := by
      constructor
      · rintro rfl
        simp at hut
      · rintro rfl
        exact hu (by simpa using hut.symm)
    have := ofText_bounded (q := q) hu hut []
    exact iff_of_true ⟨_, by simpa using this⟩ hne

/-- A literal with bounds is written exactly if its text has at most one atom. Then the bounds
follow a single unit, and are read as its bounds whatever comes next, unless the text is empty or a
lone backslash: without text the bounds follow what the builder ends in, and a backslash escapes the
brace that they begin with. -/
theorem literal_bounds_iff (b : Builder) (t : Text) (hq : q ≠ .none) :
    (∀ b', b.literal t q = .ok b' ↔
      atomCount t ≤ 1 ∧ b' = b.append (literals t ++ q.suffix)) ∧
    (atomCount t ≤ 1 →
      ((∃ u, ofText (literals t ++ q.suffix) = u :: q.units) ↔ t ≠ [] ∧ t ≠ ['\\'])) ∧
    (∀ u, u ≠ .plain '\\' → ofText t = [u] → ∀ rest : Text,
      ofText (literals t ++ q.suffix ++ rest) = literalUnit u :: (q.units ++ ofText rest) ∧
      ∃ q' : Quantifier, takeRange? (q.units ++ ofText rest) = some (q', ofText rest) ∧
        q'.units = q.units) ∧
    (t = [] → Paired b.text →
      ofText (b.append (literals t ++ q.suffix)).text = ofText b.text ++ q.units) ∧
    (t = ['\\'] → ofText (literals t ++ q.suffix) = .escaped '{' :: q.units.tail) := by
  refine ⟨fun _ => literal_eq_ok_iff hq, exists_ofText_bounded_iff hq, fun u hu ht rest => ?_,
    ?_, ?_⟩
  · obtain ⟨q', hr, hu', -⟩ := takeRange?_units hq (ofText rest)
    exact ⟨ofText_bounded hu ht rest, q', hr, hu'⟩
  · rintro rfl hb
    rw [literals_nil, List.nil_append, text_append, ofText_append hb, ← text_units]
    exact congrArg _ (closed_units q).proper
  · rintro rfl
    exact ofText_bounded_backslash hq

/-- Two repetitions of nothing are two repetitions of the digit before them. -/
theorem literal_bounds_iff_empty :
    Quantifier.exactly 2 ≠ .none ∧
    (Builder.mk "\\d".toList).literal [] (.exactly 2) = .ok ⟨"\\d\x7b2\x7d".toList⟩ ∧
    atomCount [] ≤ 1 ∧
    (¬ ∃ u, ofText (literals [] ++ (Quantifier.exactly 2).suffix) =
      u :: (Quantifier.exactly 2).units) ∧
    Paired "\\d".toList ∧
    ofText "\\d\x7b2\x7d".toList = ofText "\\d".toList ++ (Quantifier.exactly 2).units := by
  have hq : Quantifier.exactly 2 ≠ .none := by decide
  have hb : Paired "\\d".toList := by decide
  obtain ⟨hok, hunit, -, hempty, -⟩ := literal_bounds_iff ⟨"\\d".toList⟩ [] hq
  refine ⟨hq, (hok _).2 ⟨by decide, rfl⟩, by decide, ?_, hb, hempty rfl hb⟩
  exact fun h => ((hunit (by decide)).1 h).1 rfl

end Builder

end FluentRegex
