import FluentRegex.Source
import FluentRegex.Escape

/-!
Units that can be spelled out and cut again. A plain backslash before anything else would be read as
the start of an escape pair; units without one come back from their text, at any place in a source.
-/

namespace FluentRegex.Source

/-- Every backslash among the units escapes something. -/
def Closed (us : Source) : Prop :=
  SourceUnit.plain '\\' ∉ us

instance (us : Source) : Decidable (Closed us) :=
  inferInstanceAs (Decidable (_ ∉ _))

/-- The units that the text of these units is cut into are these again. -/
def Proper (us : Source) : Prop :=
  ofText us.text = us

variable {u : SourceUnit} {us vs : Source}

@[simp] theorem closed_nil : Closed [] := by simp [Closed]

@[simp] theorem closed_cons : Closed (u :: us) ↔ u ≠ .plain '\\' ∧ Closed us := by
  simp [Closed, eq_comm]

@[simp] theorem closed_append : Closed (us ++ vs) ↔ Closed us ∧ Closed vs := by
  simp [Closed]

theorem Closed.of_suffix (h : Closed us) (hs : vs <:+ us) : Closed vs :=
  fun m => h (hs.subset m)

theorem paired_iff_closed {t : Text} : Paired t ↔ Closed (ofText t) :=
  Iff.rfl

theorem ofText_text_append (h : Closed us) (t : Text) : ofText (us.text ++ t) = us ++ ofText t := by
  induction us with
  | nil => rfl
  | cons u us ih =>
    obtain ⟨hu, hus⟩ := closed_cons.1 h
    cases u with
    | plain c =>
      have hc : c ≠ '\\' := fun e => hu (by rw [e])
      simp [ofText_plain hc, ih hus]
    | escaped c => simp [ih hus]

theorem ofText_singleton (c : Char) : ofText [c] = [.plain c] := by
  by_cases hc : c = '\\'
  · rw [hc]
    rfl
  · rw [ofText_plain hc]
    rfl

theorem Closed.proper (h : Closed us) : Proper us := by
  have := ofText_text_append h []
  simpa [Proper] using this

theorem Closed.paired_text (h : Closed us) : Paired us.text := by
  rw [paired_iff_closed, h.proper]
  exact h

theorem text_map_plain (t : Text) : text (t.map .plain) = t := by
  induction t with
  | nil => rfl
  | cons c t ih => simp [ih]

theorem closed_map_plain {t : Text} (h : '\\' ∉ t) : Closed (t.map .plain) := by
  simpa [Closed] using h

theorem Paired.append {s t : Text} (hs : Paired s) (ht : Paired t) : Paired (s ++ t) := by
  rw [paired_iff_closed, ofText_append hs]
  exact closed_append.2 ⟨hs, ht⟩

theorem proper_ofText (t : Text) : Proper (ofText t) := by
  rw [Proper, text_ofText]

@[simp] theorem proper_nil : Proper [] := rfl

theorem proper_cons : Proper (u :: us) ↔ (u = .plain '\\' → us = []) ∧ Proper us := by
  cases u with
  | escaped c => simp [Proper]
  | plain c =>
    by_cases hc : c = '\\'
    · subst hc
      cases us with
      | nil => simp [Proper]
      | cons v vs =>
        obtain ⟨d, t, hd⟩ := List.exists_cons_of_ne_nil (v.text_ne_nil)
        simp [Proper, hd]
    · simp [Proper, ofText_plain hc, hc]

theorem Proper.closed_of_append (h : Proper (us ++ vs)) (hv : vs ≠ []) : Closed us := by
  induction us with
  | nil => simp
  | cons u us ih =>
    obtain ⟨hu, hus⟩ := proper_cons.1 h
    exact closed_cons.2 ⟨fun e => by simp_all, ih hus⟩

theorem Proper.left (h : Proper (us ++ vs)) : Proper us := by
  cases vs with
  | nil => simpa using h
  | cons v vs => exact (h.closed_of_append (by simp)).proper

theorem Proper.right (h : Proper (us ++ vs)) : Proper vs := by
  induction us with
  | nil => exact h
  | cons u us ih => exact ih (proper_cons.1 h).2

theorem Proper.of_suffix (h : Proper us) (hs : vs <:+ us) : Proper vs := by
  obtain ⟨ws, rfl⟩ := hs
  exact h.right

theorem Proper.of_isInfix (h : Proper us) (hs : vs <:+: us) : Proper vs := by
  obtain ⟨as, bs, rfl⟩ := hs
  exact h.left.right

end FluentRegex.Source

namespace FluentRegex.Escape

open Source

/-! ### Literal text -/

theorem closed_map_literalUnit {us : Source} (h : Closed us) : Closed (us.map literalUnit) := by
  intro m
  obtain ⟨u, hu, e⟩ := List.mem_map.1 m
  cases u with
  | escaped c => cases e
  | plain c =>
    rw [literalUnit] at e
    split at e
    · cases e
    · exact h (e ▸ hu)

/-- Escaping goes through text that does not end in an unpaired backslash unit by unit. -/
theorem literals_append {s : Text} (h : Paired s) (t : Text) :
    literals (s ++ t) = literals s ++ literals t := by
  rw [literals, ofText_append h, List.map_append, text_append, literals, literals]

end FluentRegex.Escape
