import FluentRegex.Proofs.LayoutLexemes

/-!
Laying out what is laid out. A cut is found by the few characters around it, and the layout puts a
line feed into the middle of them. So nothing is left to cut in a laid out text, whatever text it
comes from: inside of a segment the characters are those of the text, where no cut was found, and
before a segment there are only blanks and a dot behind them.
-/

namespace FluentRegex.Chain

variable {before before' after after' : Text} {c d : Char}

/-! ### What stands before a character -/

/-- The texts, given with their last characters first, make the same cuts in whatever follows
them. -/
def Alike (before before' : Text) : Prop :=
  ∀ s c after, isBoundary (s ++ before) c after = isBoundary (s ++ before') c after

theorem alike_refl (before : Text) : Alike before before :=
  fun _ _ _ => rfl

theorem Alike.cons (h : Alike before before') (c : Char) : Alike (c :: before) (c :: before') := by
  intro s d after
  have := h (s ++ [c]) d after
  simpa using this

/-- The characters that segments are kept apart by, in a text or in its layout. -/
def separations : Text :=
  ['.', ' ', '\n']

theorem mem_separations_iff : c ∈ separations ↔ c = '.' ∨ c = ' ' ∨ c = '\n' := by
  simp [separations]

theorem endsInRoot_append_cons (hc : c ∈ separations) (s before : Text) :
    endsInRoot (s ++ c :: before) = endsInRoot s := by
  have hr : 'p' ≠ c ∧ 'x' ≠ c ∧ 'e' ≠ c := by
    rcases mem_separations_iff.1 hc with rfl | rfl | rfl <;> decide
  obtain ⟨hp, hx, he⟩ := hr
  have root_eq : root.reverse = ['p', 'x', 'e'] := rfl
  rw [endsInRoot, endsInRoot, root_eq]
  match s with
  | [] => simp [List.isPrefixOf, hp]
  | [_] => simp [List.isPrefixOf, hx]
  | [_, _] => simp [List.isPrefixOf, he]
  | _ :: _ :: _ :: _ => simp [List.isPrefixOf]

theorem beq_of_mem_separations (hc : c ∈ separations) : (c == ')') = false ∧ (c == '{') = false := by
  rcases mem_separations_iff.1 hc with rfl | rfl | rfl <;> decide

/-- What stands before a separation has no part in the cuts behind it. -/
theorem isBoundary_append_cons (hc : c ∈ separations) (s before : Text) (e : Char) (after : Text) :
    isBoundary (s ++ c :: before) e after = isBoundary s e after := by
  obtain ⟨hclose, hopen⟩ := beq_of_mem_separations hc
  rw [isBoundary, isBoundary, endsInRoot_append_cons hc]
  cases s with
  | nil => simp [hclose, hopen]
  | cons a s => rfl

theorem alike_cons (hc : c ∈ separations) (hd : d ∈ separations) (before before' : Text) :
    Alike (c :: before) (d :: before') := by
  intro s e after
  rw [isBoundary_append_cons hc, isBoundary_append_cons hd]

/-- Nothing is cut just behind a separation. -/
theorem isBoundary_cons (hc : c ∈ separations) (before : Text) (e : Char) (after : Text) :
    isBoundary (c :: before) e after = false := by
  have h := isBoundary_append_cons hc [] before e after
  rw [List.nil_append] at h
  rw [h]
  simp [isBoundary, endsInRoot, root]

/-! ### What stands behind a character -/

theorem prefix_segmentsFrom (q : Quoting) (before t : Text) : (segmentsFrom q before t).1 <+: t := by
  induction t generalizing q before with
  | nil => exact List.nil_prefix
  | cons c t ih =>
    have hp := ih (q.step c) (c :: before)
    rw [segmentsFrom]
    split
    next first others e =>
    rw [e] at hp
    split
    · exact List.nil_prefix
    · exact (List.prefix_cons_inj c).2 hp

theorem prefix_of_prefix_append_feed {p s t : Text} (hp : '\n' ∉ p) (h : p <+: s ++ '\n' :: t) :
    p <+: s := by
  rcases List.prefix_or_prefix_of_prefix h (List.prefix_append s ('\n' :: t)) with h' | ⟨r, rfl⟩
  · exact h'
  · cases r with
    | nil => simp
    | cons d r =>
      obtain ⟨rfl, -⟩ := List.cons_prefix_cons.1 ((List.prefix_append_right_inj s).1 h)
      exact absurd (by simp) hp

/-- What the layout from a point on starts with, if there is no line feed in it, the text starts
with. -/
theorem prefix_of_prefix_relaid {q : Quoting} {t p : Text} {depth : Nat} (hp : '\n' ∉ p)
    (h : p <+: relaid depth (segmentsFrom q before t)) : p <+: t := by
  refine List.IsPrefix.trans ?_ (prefix_segmentsFrom q before t)
  rw [relaid] at h
  cases hl : linesFrom depth (segmentsFrom q before t).2 with
  | nil => simpa [hl, feedLines] using h
  | cons l ls =>
    rw [hl, feedLines, List.flatMap_cons, List.cons_append] at h
    exact prefix_of_prefix_append_feed hp h

theorem singleton_prefix_iff {t : Text} : [c] <+: t ↔ t.head? = some c := by
  cases t with
  | nil => simp
  | cons d t => simp [List.cons_prefix_cons, eq_comm]

/-- A cut depends on what follows it only through what that starts with. -/
theorem isBoundary_mono (h : ∀ p : Text, '\n' ∉ p → p <+: after' → p <+: after)
    (hb : isBoundary before c after' = true) : isBoundary before c after = true := by
  have hroot : root.isPrefixOf after' = true → root.isPrefixOf after = true := by
    simpa only [List.isPrefixOf_iff_prefix] using h root (by decide)
  have hbrace : after'.head? = some '}' → after.head? = some '}' := by
    simpa only [← singleton_prefix_iff] using h ['}'] (by decide)
  unfold isBoundary at hb ⊢
  split_ifs at hb ⊢
  · exact hb
  · simp only [Bool.or_eq_true, Bool.and_eq_true, beq_iff_eq] at hb ⊢
    exact hb.imp (.imp_right hroot) (.imp_right hbrace)

theorem mem_separations_of_isBoundary (h : isBoundary before c after = true) :
    c ∈ separations ∧ Quoting.outside.step c = .outside := by
  unfold isBoundary at h
  split_ifs at h with hd hs
  · subst hd
    decide
  · subst hs
    decide

/-! ### The layout holds no cut -/

/-- Between segments that are laid out, nothing is cut. -/
theorem uncut_separation {indent : Nat} {dot t : Text} (hdot : dot = [] ∨ dot = ['.'])
    (ht : ∀ d s, d ∈ separations → Uncut .outside (d :: s) t []) :
    Uncut .outside before ('\n' :: (List.replicate indent ' ' ++ (dot ++ t))) [] := by
  have hdots : ∀ d s, d ∈ separations → Uncut .outside (d :: s) (dot ++ t) [] := by
    intro d s hd
    rcases hdot with rfl | rfl
    · exact ht d s hd
    · refine ⟨?_, ht '.' (d :: s) (by decide)⟩
      rw [isBoundary_cons hd]
      rfl
  have hblanks : ∀ d s, d ∈ separations →
      Uncut .outside (d :: s) (List.replicate indent ' ' ++ (dot ++ t)) [] := by
    induction indent with
    | zero => exact hdots
    | succ n ih =>
      intro d s hd
      refine ⟨?_, ih ' ' (d :: s) (by decide)⟩
      rw [isBoundary_cons hd]
      rfl
  exact ⟨rfl, hblanks '\n' before (by decide)⟩

/-- The layout of a text from a point on holds no cut, behind anything that makes the cuts which
stand behind `before` in the text. -/
theorem uncut_relaid (q : Quoting) (before before' t : Text) (depth : Nat)
    (h : Alike before before') : Uncut q before' (relaid depth (segmentsFrom q before t)) [] := by
  induction t generalizing q before before' depth with
  | nil => trivial
  | cons c t ih =>
    have ihc := ih (q.step c) (c :: before)
    have hp := @prefix_of_prefix_relaid (c :: before) (q.step c) t
    rw [segmentsFrom]
    split
    next first others e =>
    rw [e] at ihc hp
    split
    · -- The layout of a cut keeps apart what stands before it and behind it.
      next hcut =>
      obtain ⟨rfl, hb⟩ : q = .outside ∧ isBoundary before c t = true := by simpa using hcut
      obtain ⟨hc, hstep⟩ := mem_separations_of_isBoundary hb
      rw [hstep] at ihc
      obtain ⟨indent, depth', dot, hdot, er⟩ := relaid_cut depth (first, others)
      rw [er]
      exact uncut_separation hdot fun d s hd => ihc (d :: s) depth' (alike_cons hc hd before s)
    · -- No cut here: what follows in the layout starts with nothing that the text lacks.
      next hcut =>
      refine ⟨Bool.eq_false_iff.2 fun hb => hcut ?_, ihc _ depth (h.cons c)⟩
      simp only [List.append_nil, Bool.and_eq_true] at hb ⊢
      have hb' := h [] c (relaid depth (first, others))
      exact ⟨hb.1, isBoundary_mono (fun p hn => hp hn) (hb'.trans hb.2)⟩

/-- Any laid out text is a single segment. -/
theorem segments_layOut (t : Text) : segments (layOut t) = (layOut t, []) := by
  have hu := uncut_relaid .outside [] [] t 1 (alike_refl [])
  have hs := segmentsFrom_append hu
  rw [layOut_eq, segments]
  simpa [segments, segmentsFrom] using hs

/-- Laying out a text a second time changes nothing, whatever the text is. -/
theorem layOut_layOut (t : Text) : layOut (layOut t) = layOut t := by
  rw [layOut_eq (layOut t), segments_layOut, relaid]
  simp [linesFrom, feedLines]

/-- The layout of a chain holds no cut, in whatever quoted text it has, and so is laid out as it
is. -/
theorem layOut_pretty (c : Chain) :
    layOut (layOut c.print) = layOut c.print ∧ segments c.pretty = (c.pretty, []) :=
  ⟨layOut_layOut c.print, segments_layOut c.print⟩

end FluentRegex.Chain
