import FluentRegex.Proofs.Balancing

/-!
Canonical sources: the sources in which everything stands as the chain of a source writes it. They
are sequences of operators, tokens, ordinary units, groups and sets, all but the operators with
bounds at will. The rebuilt source of a canonical one is that source itself.
-/

namespace FluentRegex.Source

open Escape

/-- The characters that have a meaning of their own or are escaped in literal text. -/
def reserved : Text :=
  ['\\', '|', '$', '^', '?', '*', '+', '.', '[', ']', '(', ')', '{', '}', '"']

/-- A unit that stands for itself outside of sets: a character that is not reserved, or an escape
pair that is no token. -/
def Ordinary : SourceUnit → Prop
  | .plain c => c ∉ reserved
  | .escaped c => Token.ofUnit? (.escaped c) = none

instance : DecidablePred Ordinary
  | .plain c => inferInstanceAs (Decidable (c ∉ reserved))
  | .escaped c => inferInstanceAs (Decidable (Token.ofUnit? (.escaped c) = none))

/-- The bare units, besides brackets, that are no token and are escaped in literal text. -/
def structural : Source :=
  [.plain '(', .plain ')', .plain '{', .plain '}', .plain '"']

/-- Bodies in which a bare parenthesis, brace or quote stands only in bounds, which directly follow
a unit that takes them. -/
inductive Flat : Source → Prop
  | nil : Flat []
  | unit {u : SourceUnit} {us : Source} (q : Quantifier) (hu : u ∉ structural)
      (hq : q = .none ∨ takesBounds u = true) (h : Flat us) : Flat (u :: (q.units ++ us))

/-- The body of a canonical set: nothing in it closes the set, and escaping it changes nothing.
Escaping for a callback is what counts when the body holds a class shorthand, and then it is flat as
well. -/
structure CanonicalSet (body : Source) : Prop where
  bracket : SourceUnit.plain ']' ∉ body
  closed : Closed body
  escaped : Escape.set (Chain.holdsShorthand body) body.text = body.text
  flat : Chain.holdsShorthand body = true → Flat body

/-- Canonical sources. Bounds are those that a quantifier writes, perhaps none. -/
inductive Canonical : Source → Prop
  | nil : Canonical []
  | operator {k : Token} {us : Source} (hk : k.quantifiable = false) (h : Canonical us) :
      Canonical (k.unit :: us)
  | token {k : Token} {us : Source} (q : Quantifier) (hk : k.quantifiable = true)
      (h : Canonical us) : Canonical (k.unit :: (q.units ++ us))
  | ordinary {u : SourceUnit} {us : Source} (q : Quantifier) (hu : Ordinary u) (h : Canonical us) :
      Canonical (u :: (q.units ++ us))
  | group {body us : Source} (g : Group) (q : Quantifier) (hb : Canonical body)
      (head : body.head? ≠ some (.plain '?')) (h : Canonical us) :
      Canonical (enclosed (.group g) body ++ (q.units ++ us))
  | set {body us : Source} (negated : Bool) (q : Quantifier) (hb : CanonicalSet body)
      (h : Canonical us) : Canonical (enclosed (.set negated) body ++ (q.units ++ us))

variable {u : SourceUnit} {us vs body rest : Source} {g : Group} {q : Quantifier}

/-! ### Units -/

/-- Reserved are the backslash, what is escaped in literal text, and the tokens. -/
theorem ordinary_plain_iff {c : Char} :
    Ordinary (.plain c) ↔
      c ≠ '\\' ∧ isLiteralSignificant c = false ∧ Token.ofUnit? (.plain c) = none := by
  have meaning : reserved.all (fun c =>
      c == '\\' || isLiteralSignificant c || (Token.ofUnit? (.plain c)).isSome) = true := by
    decide
  constructor
  · refine fun h => ⟨fun e => h (e ▸ by decide), ?_, ?_⟩
    · refine Bool.eq_false_iff.2 fun hc => h ?_
      simp only [reserved, isLiteralSignificant, List.mem_cons, decide_eq_true_eq] at hc ⊢
      grind
    · refine Option.eq_none_iff_forall_ne_some.2 fun k hk => h ?_
      cases k <;> cases Token.ofUnit?_eq_some_iff.1 hk <;> decide
  · rintro ⟨hb, hs, ht⟩ m
    simpa [hb, hs, ht] using List.all_eq_true.1 meaning c m

theorem Ordinary.ne (h : Ordinary u) {c : Char} (hc : c ∈ reserved) : u ≠ .plain c := by
  rintro rfl
  exact h hc

theorem ofUnit?_of_ordinary (h : Ordinary u) : Token.ofUnit? u = none := by
  cases u with
  | plain c => exact (ordinary_plain_iff.1 h).2.2
  | escaped c => exact h

theorem writtenUnit_of_ordinary (h : Ordinary u) : writtenUnit u = u := by
  rw [writtenUnit_of_literal (ofUnit?_of_ordinary h)]
  cases u with
  | plain c => simp [literalUnit, (ordinary_plain_iff.1 h).2.1]
  | escaped c => rfl

/-! ### Starts -/

theorem Canonical.head_ne (h : Canonical us) : us.head? ≠ some (.plain '{') := by
  cases h with
  | nil => simp
  | @operator k us hk h => cases k <;> simp [Token.unit]
  | @token k us q hk h => cases k <;> simp [Token.unit]
  | ordinary q hu h => simpa using hu.ne (by decide : '{' ∈ reserved)
  | group g q hb head h => cases g <;> simp [enclosed, Enclosure.opener, Group.opener]
  | set negated q hb h => cases negated <;> simp [enclosed, Enclosure.opener]

theorem Flat.head_ne (h : Flat us) : us.head? ≠ some (.plain '{') := by
  cases h with
  | nil => simp
  | unit q hu hq h =>
    intro e
    exact hu (by simp [structural, Option.some.inj e])

/-- The bounds written after a unit that takes them are read back on it. -/
theorem unitBounds_units (hq : q = .none ∨ takesBounds u = true)
    (h : us.head? ≠ some (.plain '{')) :
    ∃ q' : Quantifier, unitBounds u (q.units ++ us) = (q', us) ∧ q'.units = q.units := by
  by_cases hu : takesBounds u = true
  · simpa [unitBounds, hu] using takeRange_units q h
  · obtain rfl := hq.resolve_right hu
    exact ⟨.none, by simp [unitBounds, hu], rfl⟩

/-! ### Balance -/

theorem Canonical.balanced (h : Canonical us) : Balanced us := by
  induction h with
  | nil => exact balanced_nil
  | @operator k us hk h ih => exact ih.cons (by cases k <;> decide)
  | @token k us q hk h ih => exact ((balanced_units q).append ih).cons (by cases k <;> decide)
  | ordinary q hu h ih =>
    refine ((balanced_units q).append ih).cons fun m => ?_
    simp only [delimiters, List.mem_cons, List.not_mem_nil, or_false] at m
    rcases m with rfl | rfl | rfl | rfl <;> exact hu (by decide)
  | group g q hb head h ihb ih => exact (balanced_group g ihb).append ((balanced_units q).append ih)
  | set negated q hb h ih =>
    exact (balanced_set negated hb.bracket).append ((balanced_units q).append ih)

/-! ### Bodies of sets -/

/-- A body that escaping leaves alone has no bare character that escaping would escape. -/
theorem notMem_of_setUnits_eq {nested : Bool} {before : Text} {c : Char}
    (hc : isSetSignificant nested c = true) (h : setUnits nested before us = us) :
    SourceUnit.plain c ∉ us := by
  induction us generalizing before with
  | nil => simp
  | cons u us ih =>
    rw [setUnits, List.cons.injEq] at h
    refine List.not_mem_cons_of_ne_of_not_mem (fun e => ?_) (ih h.2)
    cases hc.symm.trans (of_setUnit_eq_plain (h.1.trans e.symm)).2

theorem writtenUnit_eq_self (h : u ∉ structural) (ho : u ≠ .plain '[') (hc : u ≠ .plain ']') :
    writtenUnit u = u := by
  cases u with
  | escaped c => exact writtenUnit_escaped c
  | plain c =>
    rcases writtenUnit_plain c with e | ⟨hs, -⟩
    · exact e
    · simp only [isLiteralSignificant, List.mem_cons, List.not_mem_nil, or_false,
        decide_eq_true_eq] at hs
      rcases hs with rfl | rfl | rfl | rfl | rfl | rfl | rfl | rfl | rfl | rfl
      all_goals first | rfl | exact absurd rfl ho | exact absurd rfl hc | exact absurd (by decide) h

/-- A flat body without brackets is written as it is. -/
theorem flatRebuilt_of_flat (h : Flat us) (ho : SourceUnit.plain '[' ∉ us)
    (hc : SourceUnit.plain ']' ∉ us) : flatRebuilt us = us := by
  induction h with
  | nil => exact flatRebuilt_nil
  | @unit u us q hu hq h ih =>
    simp only [List.mem_cons, List.mem_append, not_or] at ho hc
    obtain ⟨q', hb, hq'⟩ := unitBounds_units hq h.head_ne
    rw [flatRebuilt_cons, hb, hq', ih ho.2.2 hc.2.2,
      writtenUnit_eq_self hu (Ne.symm ho.1) (Ne.symm hc.1)]

theorem closed_setUnits {nested : Bool} {before : Text} (h : Closed us) :
    Closed (setUnits nested before us) := by
  induction us generalizing before with
  | nil => exact closed_nil
  | cons u us ih =>
    obtain ⟨hu, hus⟩ := closed_cons.1 h
    rw [setUnits, closed_cons]
    exact ⟨fun e => hu (of_setUnit_eq_plain e).1, ih hus⟩

theorem CanonicalSet.setUnits_eq (h : CanonicalSet body) :
    setUnits (Chain.holdsShorthand body) [] body = body := by
  have := congrArg ofText h.escaped
  rwa [Escape.set, h.closed.proper, (closed_setUnits h.closed).proper] at this

theorem CanonicalSet.rebuilt (h : CanonicalSet body) : Chain.rebuiltSet body = body := by
  have he := h.setUnits_eq
  rw [Chain.rebuiltSet]
  split
  · next hs =>
    rw [hs] at he
    rw [flatRebuilt_of_flat (h.flat hs) (notMem_of_setUnits_eq (by decide) he) h.bracket, he]
  · next hs =>
    rwa [Bool.eq_false_iff.2 hs] at he

theorem CanonicalSet.of_setUnits (hb : SourceUnit.plain ']' ∉ body) (hc : Closed body)
    (he : setUnits (Chain.holdsShorthand body) [] body = body)
    (hf : Chain.holdsShorthand body = true → Flat body) : CanonicalSet body :=
  ⟨hb, hc, by rw [Escape.set, hc.proper, he], hf⟩

/-- A caret that a set starts with can be read as its negation instead. -/
theorem CanonicalSet.tail (h : CanonicalSet (.plain '^' :: body)) : CanonicalSet body := by
  have hs : Chain.holdsShorthand (.plain '^' :: body) = Chain.holdsShorthand body := rfl
  have he := h.setUnits_eq
  rw [hs, setUnits, List.cons.injEq] at he
  refine .of_setUnits (List.not_mem_of_not_mem_cons h.bracket) (closed_cons.1 h.closed).2 ?_ ?_
  · have hw : window [] = window ['^'] := rfl
    rw [setUnits_congr hw]
    exact he.2
  · intro ht
    have hf := h.flat (hs.trans ht)
    generalize e : SourceUnit.plain '^' :: body = us at hf
    cases hf with
    | nil => cases e
    | unit q hu hq hf =>
      obtain ⟨rfl, rfl⟩ := List.cons.inj e
      obtain rfl := hq.resolve_right (by decide)
      exact hf

/-! ### Rebuilding -/

theorem takeOpener?_opener (g : Group) (h : us.head? ≠ some (.plain '?')) :
    Group.takeOpener? (g.opener.map .plain ++ us) = some (g, us) := by
  cases g with
  | capturing =>
    cases us with
    | nil => rfl
    | cons u us =>
      show Group.takeOpener? (.plain '(' :: u :: us) = _
      unfold Group.takeOpener?
      split <;> simp_all
  | _ => rfl

theorem writtenUnit_unit (k : Token) : writtenUnit k.unit = k.unit :=
  writtenUnit_of_token (Token.ofUnit?_unit k)

theorem takesBounds_unit (k : Token) : takesBounds k.unit = k.quantifiable := by
  simp [takesBounds, Token.ofUnit?_unit]

theorem takesBounds_of_ordinary (h : Ordinary u) : takesBounds u = true := by
  simp [takesBounds, ofUnit?_of_ordinary h]

/-- A unit that is written for itself stays with its bounds. -/
theorem rebuilt_unit_units (hw : writtenUnit u = u) (hg : u ≠ .plain '(') (hs : u ≠ .plain '[')
    (hq : q = .none ∨ takesBounds u = true) (h : us.head? ≠ some (.plain '{')) :
    rebuilt (u :: (q.units ++ us)) = u :: (q.units ++ rebuilt us) := by
  obtain ⟨q', hb, hq'⟩ := unitBounds_units hq h
  rw [rebuilt_unit hg hs, hw, hb, hq']

theorem rebuilt_group (hb : Balanced body) (hh : body.head? ≠ some (.plain '?'))
    (h : us.head? ≠ some (.plain '{')) :
    rebuilt (enclosed (.group g) body ++ (q.units ++ us)) =
      enclosed (.group g) (headUnits (rebuilt body)) ++ (q.units ++ rebuilt us) := by
  obtain ⟨q', hr, hq⟩ := takeRange_units q h
  have ho : Group.takeOpener? (enclosed (.group g) body ++ (q.units ++ us)) =
      some (g, body ++ .plain ')' :: (q.units ++ us)) := by
    have hi : (body ++ .plain ')' :: (q.units ++ us)).head? ≠ some (.plain '?') := by
      cases body <;> simp_all
    have := takeOpener?_opener g hi
    simpa [enclosed, Enclosure.opener, Enclosure.closer, Group.closer] using this
  rw [rebuilt_of_takeOpener? ho, hb.takeGroup, hr, hq]

theorem enclosed_set_append (negated : Bool) (body rest : Source) :
    enclosed (.set negated) body ++ rest =
      .plain '[' :: ((if negated then [.plain '^'] else []) ++ (body ++ .plain ']' :: rest)) := by
  cases negated <;> simp [enclosed, Enclosure.opener, Enclosure.closer]

theorem setOpening_append {negated : Bool} (hn : negated = true ∨ body.head? ≠ some (.plain '^')) :
    Chain.setOpening ((if negated then [.plain '^'] else []) ++ (body ++ .plain ']' :: rest)) =
      (negated, body ++ .plain ']' :: rest) := by
  cases negated with
  | true => rfl
  | false =>
    unfold Chain.setOpening
    split
    · cases body <;> simp_all
    · rfl

theorem rebuilt_enclosed_set {negated : Bool} (hb : SourceUnit.plain ']' ∉ body)
    (hn : negated = true ∨ body.head? ≠ some (.plain '^')) (h : us.head? ≠ some (.plain '{')) :
    rebuilt (enclosed (.set negated) body ++ (q.units ++ us)) =
      enclosed (.set negated) (Chain.rebuiltSet body) ++ (q.units ++ rebuilt us) := by
  obtain ⟨q', hr, hq⟩ := takeRange_units q h
  have ht : takeSet (body ++ .plain ']' :: (q.units ++ us)) = (body, q.units ++ us) := by
    rw [takeSet, splitSet?_eq_some_iff.2 ⟨rfl, hb⟩]
    rfl
  rw [enclosed_set_append, rebuilt_set, setOpening_append hn, ht, hr, hq]

theorem headUnits_eq_self (h : us.head? ≠ some (.plain '?')) : headUnits us = us := by
  unfold headUnits
  split
  · exact absurd rfl h
  · rfl

theorem rebuilt_canonicalSet (negated : Bool) (hb : CanonicalSet body)
    (h : us.head? ≠ some (.plain '{')) :
    rebuilt (enclosed (.set negated) body ++ (q.units ++ us)) =
      enclosed (.set negated) body ++ (q.units ++ rebuilt us) := by
  by_cases hn : negated = true ∨ body.head? ≠ some (.plain '^')
  · rw [rebuilt_enclosed_set hb.bracket hn h, hb.rebuilt]
  · simp only [not_or, Decidable.not_not, Bool.not_eq_true] at hn
    obtain ⟨rfl, hc⟩ := hn
    obtain ⟨body, rfl⟩ := List.head?_eq_some_iff.1 hc
    have := rebuilt_enclosed_set (q := q) hb.tail.bracket (.inl rfl) h
    rwa [hb.tail.rebuilt] at this

theorem Canonical.head_append_ne (h : Canonical us) (hr : rest.head? ≠ some (.plain '{')) :
    (us ++ rest).head? ≠ some (.plain '{') := by
  have := h.head_ne
  cases us with
  | nil => exact hr
  | cons u us => exact this

/-- A canonical source is rebuilt as it is, whatever follows other than a brace. -/
theorem Canonical.rebuilt_append (h : Canonical us) (hr : rest.head? ≠ some (.plain '{')) :
    rebuilt (us ++ rest) = us ++ rebuilt rest := by
  induction h generalizing rest with
  | nil => rfl
  | @operator k us hk h ih =>
    have := rebuilt_unit_units (q := .none) (writtenUnit_unit k) (by cases k <;> decide)
      (by cases k <;> decide) (.inl rfl) (h.head_append_ne hr)
    rwa [ih hr] at this
  | @token k us q hk h ih =>
    rw [List.cons_append, List.append_assoc, rebuilt_unit_units (writtenUnit_unit k)
      (by cases k <;> decide) (by cases k <;> decide) (.inr ((takesBounds_unit k).trans hk))
      (h.head_append_ne hr), ih hr, List.cons_append, List.append_assoc]
  | @ordinary u us q hu h ih =>
    rw [List.cons_append, List.append_assoc, rebuilt_unit_units (writtenUnit_of_ordinary hu)
      (hu.ne (by decide)) (hu.ne (by decide)) (.inr (takesBounds_of_ordinary hu))
      (h.head_append_ne hr), ih hr, List.cons_append, List.append_assoc]
  | @group body us g q hb head h ihb ih =>
    have hbody : Source.rebuilt body = body := by simpa using @ihb [] (by simp)
    rw [List.append_assoc, List.append_assoc, rebuilt_group hb.balanced head
      (h.head_append_ne hr), ih hr, hbody, headUnits_eq_self head, List.append_assoc,
      List.append_assoc]
  | @set body us negated q hb h ih =>
    rw [List.append_assoc, List.append_assoc, rebuilt_canonicalSet negated hb (h.head_append_ne hr),
      ih hr, List.append_assoc, List.append_assoc]

theorem Canonical.rebuilt (h : Canonical us) : rebuilt us = us := by
  simpa using h.rebuilt_append (show ([] : Source).head? ≠ some (.plain '{') by simp)

end FluentRegex.Source
