import FluentRegex.Argument
import FluentRegex.Source.Range
import FluentRegex.Proofs.Units

/-!
Bounds in pattern source. A range is read just where one of its texts stands, in which numbers may
start with zeros. So what a quantifier writes is read back as the quantifier that its arguments
give, whatever follows; and what is read is always a quantifier that its own arguments give back.
-/

namespace FluentRegex

/-- The units that a quantifier adds after a fragment. -/
def Quantifier.units (q : Quantifier) : Source :=
  q.suffix.map .plain

/-! ### Texts of ranges -/

/-- The text is a run of digits, perhaps with leading zeros, that denotes the bound. -/
def Text.Denotes (ds : Text) (n : UInt32) : Prop :=
  (∀ c ∈ ds, c.isDigit = true) ∧ bound? ds = some n

theorem Text.denotes_numeral (n : UInt32) : Denotes (numeral n.toNat) n :=
  ⟨fun _ => isDigit_of_mem_numeral, bound?_numeral n⟩

open Text (Denotes)

/-- The text is a range that says the quantifier: one or two numbers between braces. -/
inductive RangeText : Text → Quantifier → Prop
  | exactly {ds : Text} {n : UInt32} (h : Denotes ds n) :
      RangeText ('{' :: (ds ++ ['}'])) (.exactly n)
  | between {ds es : Text} {low high : UInt32} (hl : Denotes ds low) (hh : Denotes es high) :
      RangeText ('{' :: (ds ++ ',' :: (es ++ ['}']))) (.between low high)

variable {s : Text} {q : Quantifier}

theorem rangeText_exactly (n : UInt32) :
    RangeText (Quantifier.exactly n).suffix (.exactly n) := by
  simpa [Quantifier.suffix] using RangeText.exactly (Text.denotes_numeral n)

theorem rangeText_between (low high : UInt32) :
    RangeText (Quantifier.between low high).suffix (.between low high) := by
  have h := RangeText.between (Text.denotes_numeral low) (Text.denotes_numeral high)
  simpa [Quantifier.suffix] using h

/-- What a quantifier writes is a text of the quantifier that its arguments give, which writes the
same and has the same arguments. -/
theorem exists_rangeText_suffix (h : q ≠ .none) :
    ∃ q' : Quantifier, Quantifier.ofArguments q.arguments = .ok q' ∧ RangeText q.suffix q' ∧
      q'.suffix = q.suffix ∧ q'.arguments = q.arguments := by
  refine ⟨_, Quantifier.ofArguments_arguments q, ?_⟩
  rcases q with ⟨_ | low, _ | high⟩
  · exact absurd rfl h
  · exact ⟨rangeText_between 0 high, rfl, rfl⟩
  · exact ⟨rangeText_exactly low, rfl, rfl⟩
  · exact ⟨rangeText_between low high, rfl, rfl⟩

namespace RangeText

theorem suffix (h : RangeText s q) : RangeText q.suffix q := by
  cases h with
  | exactly => exact rangeText_exactly _
  | between => exact rangeText_between _ _

theorem ofArguments (h : RangeText s q) : Quantifier.ofArguments q.arguments = .ok q := by
  cases h <;> rfl

end RangeText

namespace Source

variable {us rest : Source}

@[simp] theorem text_units (q : Quantifier) : text q.units = q.suffix :=
  text_map_plain q.suffix

@[simp] theorem units_none : Quantifier.none.units = [] := rfl

theorem mem_suffix {c : Char} (h : c ∈ q.suffix) :
    c = '{' ∨ c = '}' ∨ c = ',' ∨ c.isDigit = true := by
  rcases q with ⟨_ | low, _ | high⟩ <;>
    simp only [Quantifier.suffix, Quantifier.bounds, List.mem_append, List.mem_singleton,
      List.not_mem_nil] at h
  · rcases h with (((h | h) | h) | h) | h <;>
      first | exact .inr (.inr (.inr (Text.isDigit_of_mem_numeral h))) | simp [h]
  · rcases h with (h | h) | h <;>
      first | exact .inr (.inr (.inr (Text.isDigit_of_mem_numeral h))) | simp [h]
  · rcases h with (((h | h) | h) | h) | h <;>
      first | exact .inr (.inr (.inr (Text.isDigit_of_mem_numeral h))) | simp [h]

theorem mem_units {u : SourceUnit} (h : u ∈ q.units) :
    ∃ c, u = .plain c ∧ (c = '{' ∨ c = '}' ∨ c = ',' ∨ c.isDigit = true) := by
  obtain ⟨c, hc, rfl⟩ := List.mem_map.1 h
  exact ⟨c, rfl, mem_suffix hc⟩

theorem closed_units (q : Quantifier) : Closed q.units := by
  intro m
  obtain ⟨c, e, hc⟩ := mem_units m
  cases e
  revert hc
  decide

/-! ### Reading a range -/

theorem takeDigits_append {ds : Text} (hd : ∀ c ∈ ds, c.isDigit = true) {c : Char}
    (hc : c.isDigit = false) (rest : Source) :
    takeDigits (ds.map .plain ++ .plain c :: rest) = (ds, .plain c :: rest) := by
  induction ds with
  | nil => simp [takeDigits, hc]
  | cons d ds ih =>
    rw [List.map_cons, List.cons_append, takeDigits, if_pos (hd d (by simp)),
      ih fun e he => hd e (by simp [he])]

theorem takeBound?_append {ds : Text} {n : UInt32} (h : Denotes ds n) {c : Char}
    (hc : c.isDigit = false) (rest : Source) :
    takeBound? (ds.map .plain ++ .plain c :: rest) = some (n, .plain c :: rest) := by
  rw [takeBound?, takeDigits_append h.1 hc]
  simp [h.2]

theorem of_takeDigits (us : Source) :
    (∀ c ∈ (takeDigits us).1, c.isDigit = true) ∧
      us = (takeDigits us).1.map .plain ++ (takeDigits us).2 := by
  fun_induction takeDigits us with
  | case1 c us h digits rest e ih =>
    rw [e] at ih
    obtain ⟨hd, hus⟩ := ih
    exact ⟨by simpa using ⟨h, hd⟩, by rw [List.map_cons, List.cons_append, ← hus]⟩
  | case2 => simp
  | case3 => simp

theorem exists_of_takeBound? {n : UInt32} (h : takeBound? us = some (n, rest)) :
    ∃ ds, Denotes ds n ∧ us = ds.map .plain ++ rest := by
  simp only [takeBound?, Option.map_eq_some_iff, Prod.mk.injEq] at h
  obtain ⟨_, hb, rfl, rfl⟩ := h
  obtain ⟨hd, hus⟩ := of_takeDigits us
  exact ⟨_, ⟨hd, hb⟩, hus⟩

/-- The texts that are read as a range are its texts. -/
theorem takeRange?_eq_some_iff :
    takeRange? us = some (q, rest) ↔ ∃ s, us = s.map .plain ++ rest ∧ RangeText s q := by
  constructor
  · intro h
    unfold takeRange? at h
    split at h
    · split at h
      · next hb =>
        obtain ⟨rfl, rfl⟩ := by simpa using h
        obtain ⟨ds, hd, e⟩ := exists_of_takeBound? hb
        exact ⟨_, by simp [e], .exactly hd⟩
      · next hb =>
        split at h
        · next hb' =>
          obtain ⟨rfl, rfl⟩ := by simpa using h
          obtain ⟨ds, hd, e⟩ := exists_of_takeBound? hb
          obtain ⟨es, he, e'⟩ := exists_of_takeBound? hb'
          exact ⟨_, by simp [e, e'], .between hd he⟩
        · cases h
      · cases h
    · cases h
  · rintro ⟨s, rfl, h⟩
    cases h with
    | @exactly ds n h =>
      have hb := takeBound?_append h (c := '}') rfl rest
      simp [takeRange?, hb]
    | @between ds es low high hl hh =>
      have hb := takeBound?_append hl (c := ',') rfl (es.map .plain ++ .plain '}' :: rest)
      have hb' := takeBound?_append hh (c := '}') rfl rest
      simp [takeRange?, hb, hb']

/-! ### Reading written bounds -/

/-- Written bounds are read back as the bounds that their arguments give, which write the same. -/
theorem takeRange?_units (h : q ≠ .none) (rest : Source) :
    ∃ q' : Quantifier, takeRange? (q.units ++ rest) = some (q', rest) ∧ q'.units = q.units ∧
      Quantifier.ofArguments q.arguments = .ok q' := by
  obtain ⟨q', ha, hs, e, -⟩ := exists_rangeText_suffix h
  exact ⟨q', takeRange?_eq_some_iff.2 ⟨_, rfl, hs⟩, by rw [Quantifier.units, e]; rfl, ha⟩

theorem takeRange?_eq_none (h : us.head? ≠ some (.plain '{')) : takeRange? us = none := by
  unfold takeRange?
  split
  · simp at h
  · rfl

/-- Bounds that are written, perhaps none, are read back before a source that starts with none. -/
theorem takeRange_units (q : Quantifier) (h : rest.head? ≠ some (.plain '{')) :
    ∃ q' : Quantifier, takeRange (q.units ++ rest) = (q', rest) ∧ q'.units = q.units := by
  by_cases hq : q = .none
  · exact ⟨.none, by simp [hq, takeRange, takeRange?_eq_none h], by rw [hq]⟩
  · obtain ⟨q', hr, hu, -⟩ := takeRange?_units hq rest
    exact ⟨q', by rw [takeRange, hr]; rfl, hu⟩

/-! ### What is read -/

/-- A range that is read has plain characters only, between braces. -/
theorem of_takeRange? (h : takeRange? us = some (q, rest)) :
    ∃ t : Text, us = .plain '{' :: (t.map .plain ++ .plain '}' :: rest) ∧
      ((∃ n, q = .exactly n) ∨ ∃ low high, q = .between low high) := by
  obtain ⟨s, rfl, hs⟩ := takeRange?_eq_some_iff.1 h
  cases hs with
  | @exactly ds n => exact ⟨ds, by simp, .inl ⟨n, rfl⟩⟩
  | @between ds es low high => exact ⟨ds ++ ',' :: es, by simp, .inr ⟨low, high, rfl⟩⟩

/-- What a range takes off a source is plain. -/
theorem eq_of_takeRange (us : Source) : ∃ t : Text, us = t.map .plain ++ (takeRange us).2 := by
  unfold takeRange
  cases h : takeRange? us with
  | none => exact ⟨[], rfl⟩
  | some r =>
    obtain ⟨s, e, -⟩ := takeRange?_eq_some_iff.1 h
    exact ⟨s, e⟩

theorem suffix_takeRange (us : Source) : (takeRange us).2 <:+ us := by
  obtain ⟨t, e⟩ := eq_of_takeRange us
  exact ⟨_, e.symm⟩

theorem ofArguments_takeRange (us : Source) :
    Quantifier.ofArguments (takeRange us).1.arguments = .ok (takeRange us).1 := by
  unfold takeRange
  cases h : takeRange? us with
  | none => rfl
  | some r =>
    obtain ⟨_, -, hs⟩ := takeRange?_eq_some_iff.1 h
    exact hs.ofArguments

theorem ne_none_of_takeRange? (h : takeRange? us = some (q, rest)) : q ≠ .none := by
  obtain ⟨-, -, ⟨n, rfl⟩ | ⟨low, high, rfl⟩⟩ := of_takeRange? h <;> exact fun e => by cases e

theorem head?_suffix_of_takeRange? (h : takeRange? us = some (q, rest)) :
    q.suffix.head? = some '{' := by
  obtain ⟨-, -, ⟨n, rfl⟩ | ⟨low, high, rfl⟩⟩ := of_takeRange? h <;> rfl

/-! ### Reading up to a unit that is in no range -/

/-- A unit that no range holds: reading a range never goes past it. -/
def OutOfRange (u : SourceUnit) : Prop :=
  ∀ c, u = .plain c → c.isDigit = false ∧ c ∉ ['{', '}', ',']

variable {u : SourceUnit} {vs : Source}

theorem OutOfRange.ne (hu : OutOfRange u) {c : Char} (hc : c ∈ ['{', '}', ',']) : u ≠ .plain c :=
  fun e => (hu c e).2 hc

theorem takeDigits_append_cons (hu : OutOfRange u) (us vs : Source) :
    takeDigits (us ++ u :: vs) = ((takeDigits us).1, (takeDigits us).2 ++ u :: vs) := by
  fun_induction takeDigits us with
  | case1 c us h digits rest e ih =>
    rw [e] at ih
    rw [List.cons_append, takeDigits, if_pos h, ih]
  | case2 c us h => rw [List.cons_append, takeDigits, if_neg h]
  | case3 us h =>
    cases us with
    | nil =>
      cases u with
      | escaped c => rfl
      | plain c => simp [takeDigits, (hu c rfl).1]
    | cons v us =>
      cases v with
      | escaped c => rfl
      | plain c => exact absurd rfl (h c us)

theorem takeBound?_append_cons (hu : OutOfRange u) (us vs : Source) :
    takeBound? (us ++ u :: vs) = (takeBound? us).map fun r => (r.1, r.2 ++ u :: vs) := by
  rw [takeBound?, takeDigits_append_cons hu, takeBound?, Option.map_map]
  rfl

theorem takeRange?_append_cons (hu : OutOfRange u) (us vs : Source) :
    takeRange? (us ++ u :: vs) = (takeRange? us).map fun r => (r.1, r.2 ++ u :: vs) := by
  by_cases hs : us.head? = some (.plain '{')
  · obtain ⟨us, rfl⟩ := List.head?_eq_some_iff.1 hs
    have hclose := hu.ne (c := '}') (by simp)
    have hcomma := hu.ne (c := ',') (by simp)
    simp only [List.cons_append, takeRange?, takeBound?_append_cons hu]
    rcases takeBound? us with _ | ⟨low, _ | ⟨v, rest⟩⟩
    · rfl
    · simp_all
    · by_cases hv : v = .plain ','
      · subst hv
        simp only [Option.map_some, List.cons_append, takeBound?_append_cons hu]
        rcases takeBound? rest with _ | ⟨high, _ | ⟨w, rest⟩⟩
        · rfl
        · simp_all
        · by_cases hw : w = .plain '}' <;> simp_all
      · by_cases hw : v = .plain '}' <;> simp_all
  · rw [takeRange?_eq_none hs, takeRange?_eq_none]
    · rfl
    · cases us with
      | nil => simpa using hu.ne (by simp)
      | cons v us => exact hs

/-- A range is read in the same way whatever stands from a unit on that is in no range. -/
theorem takeRange_append_cons (hu : OutOfRange u) (us vs : Source) :
    takeRange (us ++ u :: vs) = ((takeRange us).1, (takeRange us).2 ++ u :: vs) := by
  rw [takeRange, takeRange?_append_cons hu, takeRange]
  cases takeRange? us <;> rfl

end Source

end FluentRegex
