import FluentRegex.Proofs.SetRebuilding

/-!
The source that the chain of a source writes: every unit is written with its bounds, a group is
written around its rebuilt body, and a set around its escaped one. What is not closed in the source
is closed in the rebuilt one.
-/

namespace FluentRegex

/-! ### Openers -/

theorem Group.takeOpener?_eq_none_iff {u : SourceUnit} {us : Source} :
    takeOpener? (u :: us) = none ↔ u ≠ .plain '(' := by
  unfold takeOpener?
  split <;> simp_all

theorem Group.eq_of_takeOpener? {us inner : Source} {g : Group}
    (h : takeOpener? us = some (g, inner)) : us = g.opener.map .plain ++ inner := by
  unfold takeOpener? at h
  split at h <;> simp at h <;> obtain ⟨rfl, rfl⟩ := h <;> rfl

theorem Chain.eq_of_setOpening (us : Source) :
    .plain '[' :: us =
      (Enclosure.set (setOpening us).1).opener.map .plain ++ (setOpening us).2 := by
  unfold setOpening
  split <;> rfl

namespace Source

variable {u : SourceUnit} {us inner : Source} {g : Group}

/-! ### The rebuilt source -/

/-- The body of a group, with a question mark at its start escaped. -/
def headUnits : Source → Source
  | .plain '?' :: us => .escaped '?' :: us
  | us => us

def enclosed (e : Enclosure) (body : Source) : Source :=
  e.opener.map .plain ++ body ++ e.closer.map .plain

/-- The source that the chain of a source writes. -/
def rebuilt : Source → Source
  | [] => []
  | u :: us =>
    match _ : Group.takeOpener? (u :: us) with
    | some (g, inner) =>
      let rest := (takeGroup inner).2
      enclosed (.group g) (headUnits (rebuilt (takeGroup inner).1)) ++
        ((takeRange rest).1.units ++ rebuilt (takeRange rest).2)
    | none =>
      if u = .plain '[' then
        let inner := (Chain.setOpening us).2
        let rest := (takeSet inner).2
        enclosed (.set (Chain.setOpening us).1) (Chain.rebuiltSet (takeSet inner).1) ++
          ((takeRange rest).1.units ++ rebuilt (takeRange rest).2)
      else writtenUnit u :: ((unitBounds u us).1.units ++ rebuilt (unitBounds u us).2)
termination_by us => us.length
decreasing_by
  · rename_i h
    have := Group.length_of_takeOpener? h
    have := length_takeGroup_body_le inner
    omega
  · rename_i h
    have := Group.length_of_takeOpener? h
    have := length_takeGroup_rest_le inner
    have := length_takeRange_le (takeGroup inner).2
    omega
  · have := Chain.length_setOpening_le us
    have := length_takeSet_rest_le (Chain.setOpening us).2
    have := length_takeRange_le (takeSet (Chain.setOpening us).2).2
    simp only [List.length_cons]
    omega
  · have := (suffix_unitBounds u us).length_le
    simp only [List.length_cons]
    omega

@[simp] theorem rebuilt_nil : rebuilt [] = [] := by
  rw [rebuilt]

theorem rebuilt_of_takeOpener? (h : Group.takeOpener? us = some (g, inner)) :
    rebuilt us = enclosed (.group g) (headUnits (rebuilt (takeGroup inner).1)) ++
      ((takeRange (takeGroup inner).2).1.units ++ rebuilt (takeRange (takeGroup inner).2).2) := by
  cases us with
  | nil => cases h
  | cons u us =>
    rw [rebuilt]
    split <;> simp_all

theorem rebuilt_set (us : Source) :
    rebuilt (.plain '[' :: us) =
      enclosed (.set (Chain.setOpening us).1)
        (Chain.rebuiltSet (takeSet (Chain.setOpening us).2).1) ++
      ((takeRange (takeSet (Chain.setOpening us).2).2).1.units ++
        rebuilt (takeRange (takeSet (Chain.setOpening us).2).2).2) := by
  rw [rebuilt]
  split
  · next h =>
    simp [Group.takeOpener?_eq_none_iff.2 (by decide : SourceUnit.plain '[' ≠ .plain '(')] at h
  · simp

theorem rebuilt_unit (hg : u ≠ .plain '(') (hs : u ≠ .plain '[') (us : Source) :
    rebuilt (u :: us) =
      writtenUnit u :: ((unitBounds u us).1.units ++ rebuilt (unitBounds u us).2) := by
  rw [rebuilt]
  split
  · next h => simp [Group.takeOpener?_eq_none_iff.2 hg] at h
  · rw [if_neg hs]

theorem text_headUnits (us : Source) : text (headUnits us) = Escape.groupHead us.text := by
  unfold headUnits
  split
  · rfl
  · next h =>
    unfold Escape.groupHead
    split
    · next e =>
      cases us with
      | nil => cases e
      | cons u us => cases u <;> simp_all
    · rfl

theorem text_enclosed (e : Enclosure) (body : Source) :
    text (enclosed e body) = e.opener ++ body.text ++ e.closer := by
  simp [enclosed, text_map_plain]

/-- Induction along a source by groups, sets and units, each with its bounds. -/
theorem sourceInduction {P : Source → Prop} (nil : P [])
    (group : ∀ us g inner, Group.takeOpener? us = some (g, inner) → P (takeGroup inner).1 →
      P (takeRange (takeGroup inner).2).2 → P us)
    (set : ∀ us, P (takeRange (takeSet (Chain.setOpening us).2).2).2 → P (.plain '[' :: us))
    (unit : ∀ u us, u ≠ .plain '(' → u ≠ .plain '[' → P (unitBounds u us).2 → P (u :: us))
    (us : Source) : P us := by
  induction us using rebuilt.induct with
  | case1 => exact nil
  | case2 u us g inner h rest ihb ihr => exact group _ g inner h ihb ihr
  | case3 us _ _ _ ih => exact set us ih
  | case4 u us h hs ih => exact unit u us (Group.takeOpener?_eq_none_iff.1 h) hs ih

/-! ### Parts of a source -/

theorem Proper.of_takeOpener? (h : Proper us) (hg : Group.takeOpener? us = some (g, inner)) :
    Proper inner :=
  h.of_suffix ⟨_, (Group.eq_of_takeOpener? hg).symm⟩

/-- The parts of a source before and after the unit that closes it, or all of the source if there is
none. -/
def CutAt (c : Char) (us : Source) (parts : Source × Source) : Prop :=
  us = parts.1 ++ .plain c :: parts.2 ∨ parts = (us, [])

theorem cutAt_takeGroup (us : Source) : CutAt ')' us (takeGroup us) := by
  unfold takeGroup
  cases h : splitGroup? us with
  | none => exact .inr rfl
  | some r => exact .inl (eq_of_splitGroup? h)

theorem cutAt_takeSet (us : Source) : CutAt ']' us (takeSet us) := by
  unfold takeSet
  cases h : splitSet? us with
  | none => exact .inr rfl
  | some r => exact .inl (splitSet?_eq_some_iff.1 h).1

theorem CutAt.proper {c : Char} {parts : Source × Source} (h : CutAt c us parts) (hp : Proper us) :
    Proper parts.1 ∧ Proper parts.2 := by
  rcases h with e | rfl
  · rw [e] at hp
    exact ⟨hp.left, (proper_cons.1 hp.right).2⟩
  · exact ⟨hp, proper_nil⟩

theorem CutAt.closed {c : Char} {parts : Source × Source} (h : CutAt c us parts) (hc : Closed us) :
    Closed parts.1 ∧ Closed parts.2 := by
  rcases h with e | rfl
  · rw [e, closed_append, closed_cons] at hc
    exact ⟨hc.1, hc.2.2⟩
  · exact ⟨hc, closed_nil⟩

theorem CutAt.isSuffix {c : Char} {parts : Source × Source} (h : CutAt c us parts) :
    parts.2 <:+ us := by
  rcases h with e | rfl
  · rw [e]
    exact ⟨parts.1 ++ [.plain c], by simp⟩
  · exact List.nil_suffix

theorem CutAt.isInfix {c : Char} {parts : Source × Source} (h : CutAt c us parts) :
    parts.1 <:+: us := by
  rcases h with e | rfl
  · rw [e]
    exact (List.prefix_append _ _).isInfix
  · exact List.infix_rfl

theorem Proper.takeRange (h : Proper us) : Proper (takeRange us).2 :=
  h.of_suffix (suffix_takeRange us)

theorem Proper.setInner (h : Proper (.plain '[' :: us)) : Proper (Chain.setOpening us).2 :=
  h.of_suffix ⟨_, (Chain.eq_of_setOpening us).symm⟩

end Source

/-! ### The chain of a source -/

namespace Chain

open Source

theorem writes_callsOfSource {us : Source} (h : Proper us) :
    Writes (callsOfSource us) (text (rebuilt us)) := by
  fun_induction callsOfSource us with
  | case1 => simpa using writes_nil
  | case2 u us g inner hg rest ihb ihr =>
    have hi := (cutAt_takeGroup inner).proper (h.of_takeOpener? hg)
    have hb := writes_callback (.group g) (ihb hi.1)
    have hr := writes_rangeCalls (ofArguments_takeRange rest)
    have := hb.cons (hr.append (ihr hi.2.takeRange))
    rw [rebuilt_of_takeOpener? hg, text_append, text_append, text_units, text_enclosed,
      text_headUnits]
    exact this
  | case3 us inner rest hg ih =>
    have hi := (cutAt_takeSet inner).proper h.setInner
    have hb := writes_setCall (setOpening us).1 hi.1
    have hr := writes_rangeCalls (ofArguments_takeRange rest)
    have := hb.cons (hr.append (ih hi.2.takeRange))
    rw [rebuilt_set, text_append, text_append, text_units, text_enclosed]
    exact this
  | case4 u us hg hs k hk ih =>
    have hu := Group.takeOpener?_eq_none_iff.1 hg
    have := (writes_tokenBounds k us).cons
      (ih ((proper_cons.1 h).2.of_suffix (suffix_tokenBounds k us)))
    rw [rebuilt_unit hu hs, unitBounds_of_token hk, writtenUnit_of_token hk, text_cons, text_append,
      text_units, Token.ofUnit?_eq_some_iff.1 hk, ← List.append_assoc]
    exact this
  | case5 u us hg hs hk ih =>
    have hu := Group.takeOpener?_eq_none_iff.1 hg
    have he : outerLiterals.ends u = false := by simp [outerLiterals, hk, hu, hs]
    have hr := @literalRun_spec outerLiterals (fun _ vs => text (rebuilt vs)) []
      (fun _ v _ => paired_literalPiece) (fun _ v vs hv _ => ?_) [] u us (by simp [Paired]) he h
    · rw [Escape.literals_nil, List.nil_append] at hr
      rw [hr]
      refine (writes_literals (valid_literalRun (fun _ v _ => ?_) [] u us)).append
        (ih ((proper_cons.1 h).2.of_suffix (suffix_literalRun _ [] u us)))
      exact Nat.le_of_eq (atomCount_literalPiece v)
    · simp only [outerLiterals, Bool.or_eq_false_iff, beq_eq_false_iff_ne] at hv
      have ht : Token.ofUnit? v = none := by simpa using hv.1.1
      rw [rebuilt_unit hv.1.2 hv.2, unitBounds_of_literal ht, writtenUnit_of_literal ht, text_cons,
        text_append, text_units, ← List.append_assoc]
      exact congrArg (· ++ _) (congrArg (· ++ _) (literals_literalPiece v).symm)

theorem callAll_ofSource (source flags : Text) :
    Builder.callAll {} (ofSource source flags).calls = .ok ⟨text (rebuilt (ofText source))⟩ :=
  writes_callsOfSource (proper_ofText source) {}

end Chain

end FluentRegex
