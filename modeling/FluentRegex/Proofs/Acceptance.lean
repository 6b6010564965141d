import FluentRegex.Proofs.Units
import FluentRegex.Pattern
import FluentRegex.Source.Delimited

/-!
What acceptance takes off a source as a whole: sets, ranges between braces, openings and inline
flags. Accepted sources do not end in an unpaired backslash: only the last unit of a source can be a
plain backslash, and neither the end of a set nor that of a range or of an opening is one.
-/

namespace FluentRegex

open Source

namespace Pattern

variable {us rest : Source}

/-- Units that end in a bare character other than a backslash leave the rest to be looked at. -/
theorem closed_passed {before : Source} {c : Char} (hc : c ≠ '\\')
    (h : Proper (before ++ .plain c :: rest)) (hr : Closed rest) :
    Closed (before ++ .plain c :: rest) :=
  closed_append.2 ⟨h.closed_of_append (by simp), closed_cons.2 ⟨by simpa using hc, hr⟩⟩

/-- Whether no range of characters in the body of a set is reversed. A hyphen between two plain
characters makes a range, and the character after a range begins anew. -/
def inOrder : Source → Bool
  | .plain x :: .plain '-' :: .plain y :: us => decide (x ≤ y) && inOrder us
  | _ :: us => inOrder us
  | [] => true

theorem inOrder_cons {u : SourceUnit}
    (h : ∀ x y vs, u = .plain x → us ≠ .plain '-' :: .plain y :: vs) :
    inOrder (u :: us) = inOrder us := by
  rw [inOrder]
  intro x y vs hu e
  exact h x y vs hu e

theorem inOrder_range (x y : Char) (us : Source) :
    inOrder (.plain x :: .plain '-' :: .plain y :: us) = (decide (x ≤ y) && inOrder us) := rfl

/-- A set is closed by its first bracket, if its ranges are in order. -/
theorem closeSet?_eq (us : Source) :
    closeSet? us = (splitSet? us).bind fun r => if inOrder r.1 then some r.2 else none := by
  fun_induction closeSet? us with
  | case1 => rfl
  | case2 => rfl
  | case3 x rest hx =>
    have hx : x ≠ ']' := by simpa using hx
    simp [splitSet?, hx, inOrder]
  | case4 x y rest hx hy h =>
    have hx : x ≠ ']' := by simpa using hx
    have h := decide_eq_false (Char.not_le.2 h)
    cases e : splitSet? rest <;> simp [splitSet?, hx, hy, e, inOrder_range, h]
  | case5 x y rest hx hy h ih =>
    have hx : x ≠ ']' := by simpa using hx
    have h := decide_eq_true (Char.not_lt.1 h)
    cases e : splitSet? rest <;> simp [splitSet?, hx, hy, e, inOrder_range, h, ih]
  | case6 u rest hu hr ih =>
    have hu : u ≠ .plain ']' := by simpa using hu
    cases e : splitSet? rest with
    | none => simp [splitSet?, hu, e, ih]
    | some r =>
      have hi : inOrder (u :: r.1) = inOrder r.1 := by
        refine inOrder_cons fun x y vs hu' hv => ?_
        have := (splitSet?_eq_some_iff.1 e).1
        rw [hv] at this
        exact hr x y _ hu' this
      simp [splitSet?, hu, e, ih, hi]

theorem eq_of_closeSet? (h : closeSet? us = some rest) :
    ∃ items, us = items ++ .plain ']' :: rest := by
  rw [closeSet?_eq, Option.bind_eq_some_iff] at h
  obtain ⟨⟨items, vs⟩, hs, h⟩ := h
  split at h
  · cases h
    exact ⟨items, (splitSet?_eq_some_iff.1 hs).1⟩
  · cases h

theorem eq_of_skipSet? (h : skipSet? us = some rest) :
    ∃ items, us = items ++ .plain ']' :: rest := by
  unfold skipSet? at h
  split at h
  · obtain ⟨items, rfl⟩ := eq_of_closeSet? h
    exact ⟨.plain '^' :: items, rfl⟩
  · exact eq_of_closeSet? h

theorem eq_of_takeNumber? (us : Source) (n : Option Nat) :
    ∃ digits : Text, us = digits.map .plain ++ (takeNumber? us n).2 ∧
      (digits = [] → (takeNumber? us n).1 = n) ∧ ∀ c ∈ digits, c.isDigit = true := by
  fun_induction takeNumber? us n with
  | case1 c us n hc ih =>
    obtain ⟨digits, e, -, hd⟩ := ih
    exact ⟨c :: digits, congrArg _ e, by simp, by simpa [hc] using hd⟩
  | case2 => exact ⟨[], rfl, by simp⟩
  | case3 => exact ⟨[], rfl, by simp⟩

/-- A range between braces holds nothing but digits and commas. -/
theorem eq_of_takeBraces? {ordered : Bool} (h : takeBraces? us = some (ordered, rest)) :
    ∃ bounds : Text, us = bounds.map .plain ++ .plain '}' :: rest ∧ bounds ≠ [] ∧
      ∀ c ∈ bounds, c.isDigit = true ∨ c = ',' := by
  unfold takeBraces? at h
  obtain ⟨low, hus, hl, hld⟩ := eq_of_takeNumber? us .none
  split at h
  · next e =>
    cases h
    rw [e] at hus hl
    exact ⟨low, hus, fun h => (by simpa using hl h), fun c hc => .inl (hld c hc)⟩
  · next us' e =>
    obtain ⟨high, hus', -, hhd⟩ := eq_of_takeNumber? us' none
    have hb : ∀ rest, us' = high.map .plain ++ .plain '}' :: rest →
        ∃ bounds : Text, us = bounds.map .plain ++ .plain '}' :: rest ∧ bounds ≠ [] ∧
          ∀ c ∈ bounds, c.isDigit = true ∨ c = ',' := by
      rintro rest rfl
      rw [e] at hus
      refine ⟨low ++ ',' :: high, by simpa using hus, by simp, fun c hc => ?_⟩
      rcases List.mem_append.1 hc with hc | hc
      · exact .inl (hld c hc)
      · exact (List.mem_cons.1 hc).symm.imp_left (hhd c)
    split at h
    · next e' =>
      cases h
      exact hb _ (by rwa [e'] at hus')
    · next e' =>
      cases h
      exact hb _ (by rwa [e'] at hus')
    · cases h
  · cases h

theorem eq_of_takeOpening (us : Source) :
    ∃ t : Text, us = t.map .plain ++ (takeOpening us).2 ∧ t ⊆ ['?', ':', '=', '!', '<'] := by
  unfold takeOpening
  split
  · exact ⟨"?:".toList, rfl, by decide⟩
  · exact ⟨"?=".toList, rfl, by decide⟩
  · exact ⟨"?!".toList, rfl, by decide⟩
  · exact ⟨"?<=".toList, rfl, by decide⟩
  · exact ⟨"?<!".toList, rfl, by decide⟩
  · exact ⟨[], rfl, by decide⟩

theorem closed_of_elements? (h : (elements? us).isSome = true) (hp : Proper us) : Closed us := by
  fun_induction elements? us with
  | case1 => exact closed_nil
  | case3 | case4 => cases h
  | case5 us rest hs ih =>
    obtain ⟨items, rfl⟩ := eq_of_skipSet? hs
    have hus := (proper_cons.1 hp).2
    refine closed_cons.2 ⟨by decide, closed_passed (by decide) hus ?_⟩
    exact ih (by simpa using h) (proper_cons.1 hus.right).2
  | case6 us ih =>
    obtain ⟨t, e, ht⟩ := eq_of_takeOpening us
    have hus := (proper_cons.1 hp).2
    rw [e] at hus
    rw [e, closed_cons, closed_append]
    exact ⟨by decide, closed_map_plain fun m => absurd (ht m) (by decide),
      ih (by simpa using h) hus.right⟩
  | case14 us ordered rest hs ih =>
    obtain ⟨bounds, rfl, -⟩ := eq_of_takeBraces? hs
    have hus := (proper_cons.1 hp).2
    refine closed_cons.2 ⟨by decide, closed_passed (by decide) hus ?_⟩
    exact ih (by simpa using h) (proper_cons.1 hus.right).2
  | _ =>
    rename_i ih
    exact closed_cons.2 ⟨by simp_all, ih (by simpa using h) (proper_cons.1 hp).2⟩

theorem eq_of_skipInlineFlags (us : Source) :
    skipInlineFlags us = us ∨ ∃ flags : Text, flags ≠ [] ∧ flags ⊆ ['i', 'm', 's'] ∧
      us = .plain '(' :: .plain '?' :: (flags.map .plain ++ .plain ')' :: skipInlineFlags us) := by
  unfold skipInlineFlags
  split
  · next rest =>
    simp only
    split
    · next v vs after ht hd =>
      have hf : ∀ w ∈ v :: vs, .plain w.char = w ∧ w.char ∈ ['i', 'm', 's'] := by
        intro w hw
        rw [← ht] at hw
        have := List.all_eq_true.1 List.all_takeWhile w hw
        simp only [Bool.or_eq_true, beq_iff_eq] at this
        rcases this with (rfl | rfl) | rfl <;> exact ⟨rfl, by decide⟩
      have hm : ((v :: vs).map SourceUnit.char).map .plain = v :: vs := by
        rw [List.map_map]
        exact (List.map_congr_left fun w hw => (hf w hw).1).trans (List.map_id _)
      refine .inr ⟨(v :: vs).map SourceUnit.char, by simp, fun c hc => ?_, ?_⟩
      · obtain ⟨w, hw, rfl⟩ := List.mem_map.1 hc
        exact (hf w hw).2
      · rw [hm, ← ht, ← hd, List.takeWhile_append_dropWhile]
    · exact .inl rfl
  · exact .inl rfl

theorem paired_of_accepts {t : Text} (h : accepts t = true) : Paired t := by
  have he : (elements? (skipInlineFlags (ofText t))).isSome = true := by
    unfold accepts at h
    split at h
    · cases h
    · next e => simp [e]
  have hp := proper_ofText t
  rw [paired_iff_closed]
  rcases eq_of_skipInlineFlags (ofText t) with e | ⟨flags, -, -, e⟩
  · rw [e] at he
    exact closed_of_elements? he hp
  · rw [e, ← List.cons_append, ← List.cons_append] at hp ⊢
    exact closed_passed (by decide) hp (closed_of_elements? he (proper_cons.1 hp.right).2)

theorem inlineText_subset (fs : Flags) : fs.inlineText ⊆ ['i', 'm', 's'] := by
  intro c hc
  obtain ⟨f, hf, rfl⟩ := List.mem_map.1 hc
  have hm := (List.mem_filter.1 hf).1
  simp only [List.mem_cons, List.not_mem_nil, or_false] at hm
  rcases hm with rfl | rfl | rfl <;> decide

/-- Flags that change how a pattern is compiled stand in a group before its source. -/
theorem ofText_compileSource {fs : Flags} (h : fs.inlineText ≠ []) (t : Text) :
    ofText (fs.compileSource t) =
      .plain '(' :: .plain '?' :: (fs.inlineText.map .plain ++ .plain ')' :: ofText t) := by
  have hb : '\\' ∉ ['(', '?'] ++ fs.inlineText ++ [')'] := by
    have : '\\' ∉ fs.inlineText := fun m => absurd (inlineText_subset fs m) (by decide)
    simpa using this
  have := ofText_text_append (closed_map_plain hb) t
  rw [text_map_plain] at this
  rw [Flags.compileSource, if_neg (by simpa using h), this]
  simp

theorem paired_source (p : Pattern) : Paired p.source := by
  have h := paired_of_accepts p.accepted
  by_cases hf : p.flags.inlineText = []
  · rwa [Flags.compileSource, if_pos (by simpa using hf)] at h
  · rw [paired_iff_closed, ofText_compileSource hf] at h
    simp only [closed_cons, closed_append] at h
    exact h.2.2.2.2

end Pattern

end FluentRegex
