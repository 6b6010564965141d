import FluentRegex.Proofs.Normalisation

/-!
Canonical sources put together. A canonical source before another one is canonical with it; an
enclosure before one is so exactly if its body is canonical as well. What follows must not start
with a brace, which would be read as bounds.
-/

namespace FluentRegex.Source

open Escape Chain

variable {us vs body rest : Source} {u : SourceUnit} {q : Quantifier}

theorem Canonical.append (h : Canonical us) (hv : Canonical vs) : Canonical (us ++ vs) := by
  induction h with
  | nil => exact hv
  | operator hk h ih => exact .operator hk ih
  | token q hk h ih =>
    rw [List.cons_append, List.append_assoc]
    exact .token q hk ih
  | ordinary q hu h ih =>
    rw [List.cons_append, List.append_assoc]
    exact .ordinary q hu ih
  | group g q hb head h ihb ih =>
    rw [List.append_assoc, List.append_assoc]
    exact .group g q hb head ih
  | set negated q hb h ih =>
    rw [List.append_assoc, List.append_assoc]
    exact .set negated q hb ih

/-- What follows a canonical source, other than a brace, is canonical if both together are. -/
theorem canonical_append_iff (h : Canonical us) (hr : rest.head? ≠ some (.plain '{')) :
    Canonical (us ++ rest) ↔ Canonical rest := by
  constructor
  · intro ha
    have he := ha.rebuilt
    rw [h.rebuilt_append hr, List.append_cancel_left_eq] at he
    exact canonical_iff.2 ⟨(closed_append.1 ha.closed).2, he⟩
  · exact h.append

/-! ### Literal text -/

theorem Canonical.literalUnit (hu : u ≠ .plain '\\')
    (hq : q = .none ∨ takesBounds (literalUnit u) = true) (h : Canonical us) :
    Canonical (literalUnit u :: (q.units ++ us)) := by
  cases hk : Token.ofUnit? (Escape.literalUnit u) with
  | some k =>
    have e := Token.ofUnit?_eq_some_iff.1 hk
    rw [e] at hq ⊢
    rw [takesBounds_unit] at hq
    by_cases hb : k.quantifiable = true
    · exact .token q hb h
    · obtain rfl := hq.resolve_right hb
      exact .operator (Bool.eq_false_iff.2 hb) h
  | none =>
    refine .ordinary q ?_ h
    cases u with
    | escaped c => exact hk
    | plain c =>
      rw [Escape.literalUnit] at hk ⊢
      split at hk
      · next hc =>
        rw [if_pos hc]
        exact hk
      · next hc =>
        rw [if_neg hc]
        exact ordinary_plain_iff.2 ⟨fun e => hu (by rw [e]), Bool.eq_false_iff.2 hc, hk⟩

theorem canonical_map_literalUnit (h : Closed us) : Canonical (us.map Escape.literalUnit) := by
  induction us with
  | nil => exact .nil
  | cons u us ih =>
    obtain ⟨hu, hus⟩ := closed_cons.1 h
    exact .literalUnit hu (.inl rfl) (ih hus)

/-! ### Sets -/

/-- The two ways to escape a body differ only in bare question marks. -/
theorem setUnits_eq_of_setUnits_eq {nested nested' : Bool} {before : Text}
    (h : setUnits nested before us = us) (hq : nested' = true ∨ SourceUnit.plain '?' ∉ us) :
    setUnits nested' before us = us := by
  induction us generalizing before with
  | nil => rfl
  | cons u us ih =>
    rw [setUnits, List.cons.injEq] at h ⊢
    refine ⟨?_, ih h.2 (hq.imp_right List.not_mem_of_not_mem_cons)⟩
    cases u with
    | escaped c => rfl
    | plain c =>
      obtain ⟨-, hs⟩ := of_setUnit_eq_plain h.1
      have hs' : isSetSignificant nested' c = false := by
        simp only [isSetSignificant, Bool.or_eq_false_iff, Bool.and_eq_false_iff] at hs ⊢
        refine ⟨hs.1, ?_⟩
        rcases hq with rfl | hq
        · exact .inr rfl
        · exact .inl (beq_eq_false_iff_ne.2 fun e => List.ne_of_not_mem_cons hq (by rw [e]))
      have := h.1
      rw [setUnit, hs] at this
      rw [setUnit, hs']
      exact this

theorem CanonicalSet.caret (h : CanonicalSet body) : CanonicalSet (.plain '^' :: body) := by
  have hs : holdsShorthand (.plain '^' :: body) = holdsShorthand body := rfl
  have hw : window [] = window ['^'] := rfl
  refine .of_setUnits (List.not_mem_cons_of_ne_of_not_mem (by decide) h.bracket)
    (closed_cons.2 ⟨by decide, h.closed⟩) ?_ fun ht => ?_
  · have he := h.setUnits_eq
    rw [setUnits_congr hw] at he
    rw [hs, setUnits_plain, he]
    cases holdsShorthand body <;> rfl
  · have := h.flat (hs.symm.trans ht)
    exact .unit (u := .plain '^') .none (by decide) (.inl rfl) this

theorem canonicalSet_of_canonical {negated : Bool} (hc : Closed body)
    (hb : SourceUnit.plain ']' ∉ body) (hn : negated = true ∨ body.head? ≠ some (.plain '^'))
    (hr : rest.head? ≠ some (.plain '{')) (h : Canonical (enclosed (.set negated) body ++ rest)) :
    CanonicalSet body ∧ Canonical rest := by
  have hset := canonicalSet_rebuiltSet hc
  have he := h.rebuilt
  have := rebuilt_enclosed_set (q := .none) hb hn hr
  rw [units_none, List.nil_append, he] at this
  simp only [enclosed, List.append_assoc, List.append_cancel_left_eq] at this
  have hs := (splitSet?_eq_some_iff.2 ⟨this, hset.bracket⟩).symm.trans
    (splitSet?_eq_some_iff.2 ⟨rfl, hb⟩)
  obtain ⟨hbody, hrest⟩ := Prod.mk.inj (Option.some.inj hs)
  refine ⟨hbody ▸ hset, canonical_iff.2 ⟨?_, hrest⟩⟩
  exact (closed_append.1 h.closed).2

/-- A set before a source is canonical with it exactly if both are. -/
theorem canonical_set_append_iff {negated : Bool} (hc : Closed body)
    (hb : SourceUnit.plain ']' ∉ body) (hr : rest.head? ≠ some (.plain '{')) :
    Canonical (enclosed (.set negated) body ++ rest) ↔ CanonicalSet body ∧ Canonical rest := by
  constructor
  · intro h
    by_cases hn : negated = true ∨ body.head? ≠ some (.plain '^')
    · exact canonicalSet_of_canonical hc hb hn hr h
    · simp only [not_or, Decidable.not_not, Bool.not_eq_true] at hn
      obtain ⟨rfl, hh⟩ := hn
      obtain ⟨body, rfl⟩ := List.head?_eq_some_iff.1 hh
      obtain ⟨hset, h⟩ := canonicalSet_of_canonical (closed_cons.1 hc).2
        (List.not_mem_of_not_mem_cons hb) (.inl rfl) hr h
      exact ⟨hset.caret, h⟩
  · rintro ⟨hset, h⟩
    exact .set negated .none hset h

theorem canonical_group_append_iff {g : Group} (hc : Closed body) (hb : Balanced body)
    (hh : body.head? ≠ some (.plain '?')) (hr : rest.head? ≠ some (.plain '{')) :
    Canonical (enclosed (.group g) body ++ rest) ↔ Canonical body ∧ Canonical rest := by
  constructor
  · intro h
    have hbody := (canonical_rebuilt hc).headUnits
    have he := h.rebuilt
    have := rebuilt_group (q := .none) (g := g) hb hh hr
    rw [units_none, List.nil_append, he] at this
    simp only [enclosed, List.append_assoc, List.append_cancel_left_eq] at this
    have hs := hb.takeGroup rest
    rw [show body ++ .plain ')' :: rest = _ from this] at hs
    have ht := (hbody.balanced.takeGroup _).symm.trans hs
    obtain ⟨eb, er⟩ := Prod.mk.inj ht
    exact ⟨eb ▸ hbody, canonical_iff.2 ⟨(closed_append.1 h.closed).2, er⟩⟩
  · rintro ⟨hbody, h⟩
    exact .group g .none hbody hh h

/-! ### Heads -/

theorem headUnits_append (h : us ≠ []) (vs : Source) :
    headUnits (us ++ vs) = headUnits us ++ vs := by
  cases us with
  | nil => exact absurd rfl h
  | cons u us =>
    by_cases hu : u = .plain '?'
    · rw [hu]
      rfl
    · rw [headUnits_eq_self (by simpa using hu), headUnits_eq_self (by simpa using hu)]

theorem head_enclosed {e : Enclosure} {c : Char} (hc : c ∉ ['(', '[']) :
    (enclosed e body ++ rest).head? ≠ some (.plain c) := by
  simp only [List.mem_cons, List.not_mem_nil, or_false, not_or] at hc
  rcases e with ⟨_ | _ | _ | _ | _⟩ | ⟨_ | _⟩ <;>
    simp [enclosed, Enclosure.opener, Group.opener, Ne.symm hc.1, Ne.symm hc.2]

end FluentRegex.Source
