import FluentRegex.Proofs.Composition
import FluentRegex.Proofs.Fragments

/-!
Programs whose delimiters hold. Whatever a program without fragments of its own writes is balanced
and ends in no unpaired backslash, and every step keeps this. So a body never closes the enclosure
that is put around it, nor does its head change what the opener opens: a scan takes a group or a set
apart into exactly what it was built from.
-/

namespace FluentRegex

open Source Escape Building

/-! ### Contained texts -/

/-- The text leaves no escape pair, no group and no set open, and closes none around it. -/
structure Contained (t : Text) : Prop where
  paired : Paired t
  balanced : Balanced (ofText t)

variable {s t body : Text} {us : Source}

theorem contained_text (hc : Closed us) (hb : Balanced us) : Contained us.text := by
  refine ⟨hc.paired_text, ?_⟩
  rwa [hc.proper]

theorem contained_nil : Contained [] :=
  contained_text closed_nil balanced_nil

theorem Contained.append (hs : Contained s) (ht : Contained t) : Contained (s ++ t) := by
  refine ⟨hs.paired.append ht.paired, ?_⟩
  rw [ofText_append hs.paired]
  exact hs.balanced.append ht.balanced

theorem Contained.takeGroup (h : Contained t) (rest : Text) :
    takeGroup (ofText (t ++ ')' :: rest)) = (ofText t, ofText rest) := by
  rw [ofText_append h.paired, ofText_plain (by decide), h.balanced.takeGroup]

theorem contained_suffix (q : Quantifier) : Contained q.suffix := by
  rw [← text_units]
  exact contained_text (closed_units q) (balanced_units q)

theorem contained_sequence (k : Token) : Contained k.sequence := by
  have h : Contained (text [k.unit]) :=
    contained_text (by cases k <;> decide) (balanced_nil.cons (by cases k <;> decide))
  simpa [Token.sequence] using h

theorem contained_literals (h : Paired t) : Contained (literals t) :=
  contained_text (closed_map_literalUnit h) (canonical_map_literalUnit h).balanced

/-! ### Bodies of enclosures -/

/-- The text can stand in the enclosure: in a group it is contained and does not add to the opener,
in a set no bracket of it is bare. -/
def Enclosure.Fits : Enclosure → Text → Prop
  | group _, body => Contained body ∧ (ofText body).head? ≠ some (.plain '?')
  | set _, body => Paired body ∧ SourceUnit.plain ']' ∉ ofText body

def Enclosure.around (e : Enclosure) (body : Text) : Text :=
  e.opener ++ body ++ e.closer

theorem fits_groupHead (g : Group) (h : Contained t) :
    (Enclosure.group g).Fits (groupHead t) := by
  have hc := closed_headUnits h.paired
  have ht : groupHead t = text (headUnits (ofText t)) := by
    rw [text_headUnits, text_ofText]
  rw [ht]
  refine ⟨contained_text hc (balanced_headUnits h.balanced), ?_⟩
  rw [hc.proper]
  exact head_headUnits _

theorem fits_set (negated nested : Bool) (h : Paired t) :
    (Enclosure.set negated).Fits (Escape.set nested t) := by
  have hc : Closed (setUnits nested [] (ofText t)) := closed_setUnits h
  refine ⟨hc.paired_text, ?_⟩
  rw [Escape.set, hc.proper]
  exact bracket_notMem_setUnits nested [] (ofText t)

namespace Enclosure

theorem fits_escapeText (e : Enclosure) (h : Paired t) : e.Fits (e.escapeText t) := by
  cases e with
  | group g => exact fits_groupHead g (contained_literals h)
  | set negated => exact fits_set negated false h

theorem fits_escapeNested (e : Enclosure) (h : Contained t) : e.Fits (e.escapeNested t) := by
  cases e with
  | group g => exact fits_groupHead g h
  | set negated => exact fits_set negated true h.paired

theorem Fits.paired {e : Enclosure} (h : e.Fits body) : Paired body := by
  cases e with
  | group g => exact h.1.paired
  | set negated => exact h.1

theorem text_enclosed_ofText (e : Enclosure) (body : Text) :
    text (enclosed e (ofText body)) = e.around body := by
  rw [text_enclosed, text_ofText, around]

theorem Fits.contained {e : Enclosure} (h : e.Fits body) : Contained (e.around body) := by
  rw [← text_enclosed_ofText]
  refine contained_text (closed_enclosed.2 h.paired) ?_
  cases e with
  | group g => exact balanced_group g h.1.balanced
  | set negated => exact balanced_set negated h.2

theorem ofText_around {e : Enclosure} (h : Paired body) (rest : Text) :
    ofText (e.around body ++ rest) =
      e.opener.map .plain ++ ofText (body ++ (e.closer ++ rest)) := by
  have hr : ofText (e.closer ++ rest) = e.closer.map .plain ++ ofText rest := by
    cases e <;> exact ofText_plain (by decide) rest
  have hc : Closed (enclosed e (ofText body)) := closed_enclosed.2 h
  rw [← text_enclosed_ofText, ofText_text_append hc, enclosed, ofText_append h, hr]
  simp

end Enclosure

/-! ### Guarded programs -/

namespace Step

mutual

/-- The step writes no fragment as it is, and its texts do not end in unpaired backslashes. -/
def Guarded : Step → Prop
  | .token _ _ => True
  | .quantifiedString _ _ => False
  | .literal t _ => Paired t
  | .enclose _ t => Paired t
  | .encloseSteps _ ss => AllGuarded ss

def AllGuarded : List Step → Prop
  | [] => True
  | s :: ss => s.Guarded ∧ AllGuarded ss

end

mutual

theorem contained_of_apply : (s : Step) → s.Guarded → {b : Builder} →
    Builder.apply {} s = .ok b → Contained b.text
  | .token k q, _, _, hb => by
    cases hb
    exact (contained_sequence k).append (contained_suffix q)
  | .quantifiedString _ _, h, _, _ => h.elim
  | .literal t q, h, _, hb => by
    rw [Builder.apply, Builder.literal] at hb
    split at hb
    · cases hb
    · cases hb
      exact (contained_literals h).append (contained_suffix q)
  | .enclose e _, h, _, hb => by
    cases hb
    exact (e.fits_escapeText h).contained
  | .encloseSteps e ss, h, _, hb => by
    rw [Builder.apply_encloseSteps] at hb
    cases hr : Builder.run {} ss with
    | ok inner =>
      rw [hr] at hb
      cases hb
      exact (e.fits_escapeNested (contained_of_run ss h contained_nil hr)).contained
    | error err =>
      rw [hr] at hb
      cases hb

/-- Guarded programs go on from contained text to contained text. -/
theorem contained_of_run : (ss : List Step) → AllGuarded ss → {b b' : Builder} →
    Contained b.text → b.run ss = .ok b' → Contained b'.text
  | [], _, b, _, hc, hr => by
    rw [Builder.run_nil] at hr
    cases hr
    exact hc
  | s :: ss, h, b, _, hc, hr => by
    rw [Builder.run_cons, b.apply_eq_map] at hr
    cases hs : Builder.apply {} s with
    | ok c =>
      rw [hs] at hr
      exact contained_of_run ss h.2 (hc.append (contained_of_apply s h.1 hs)) hr
    | error err =>
      rw [hs] at hr
      cases hr

end

end Step

namespace Edit

/-- The operation is a guarded step, or an enclosure whose callback, if it succeeds, has carried
guarded operations out, one after another whether they succeeded or failed. -/
inductive Guarded : Edit → Prop
  | step {s : Step} (h : s.Guarded) : Guarded (.step s)
  | enclosing {e : Enclosure} {callback : Building Unit} (ds : List Edit)
      (hd : ∀ d ∈ ds, Guarded d)
      (hc : ∀ b, callback.on {} = (.ok (), b) → b = ds.foldl Builder.edit {}) :
      Guarded (.enclosing e callback)

/-- The operation puts an enclosure around this escaped body. -/
inductive Encloses : Edit → Enclosure → Text → Prop
  | text (e : Enclosure) (t : Text) : Encloses (.step (.enclose e t)) e (e.escapeText t)
  | steps {e : Enclosure} {ss : List Step} {b : Builder} (h : Builder.run {} ss = .ok b) :
      Encloses (.step (.encloseSteps e ss)) e (e.escapeNested b.text)
  | callback {e : Enclosure} {w : Building Unit} {b : Builder} (h : w.on {} = (.ok (), b)) :
      Encloses (.enclosing e w) e (e.escapeNested b.text)

variable {d : Edit} {e : Enclosure} {ds : List Edit}

theorem contained_foldl_edit (h : ∀ d ∈ ds, ∀ t, d.alone? = some t → Contained t) {b : Builder}
    (hb : Contained b.text) : Contained (ds.foldl Builder.edit b).text := by
  induction ds generalizing b with
  | nil => exact hb
  | cons d ds ih =>
    refine ih (fun d' hd' => h d' (by simp [hd'])) ?_
    rw [b.edit_eq]
    cases hd : d.alone? with
    | some t => exact hb.append (h d (by simp) t hd)
    | none => exact hb.append contained_nil

theorem Guarded.contained (h : d.Guarded) : ∀ t, d.alone? = some t → Contained t := by
  induction h with
  | @step s h =>
    intro t ht
    rw [alone?, write, Step.on_write] at ht
    cases hs : Builder.apply {} s with
    | ok b =>
      rw [hs] at ht
      cases ht
      exact s.contained_of_apply h hs
    | error err =>
      rw [hs] at ht
      cases ht
  | @enclosing e callback ds hd hc ih =>
    intro t ht
    rw [alone?, write, on_enclosing] at ht
    rcases hw : callback.on {} with ⟨err | ⟨⟩, b⟩
    · rw [hw] at ht
      cases ht
    · rw [hw] at ht
      cases ht
      -- Operations that the callback went on after are in `ds` too, and have added nothing.
      rw [hc b hw]
      exact (e.fits_escapeNested (contained_foldl_edit ih contained_nil)).contained

theorem contained_program (h : ∀ d ∈ ds, d.Guarded) :
    Contained (ds.foldl Builder.edit {}).text :=
  contained_foldl_edit (fun d hd => (h d hd).contained) contained_nil

theorem Encloses.alone (h : d.Encloses e body) : d.alone? = some (e.around body) := by
  cases h with
  | text e t => rw [alone?, write, Step.on_write]; rfl
  | steps h => rw [alone?, write, Step.on_write, Builder.apply_encloseSteps, h]; rfl
  | callback h => rw [alone?, write, on_enclosing, h]; rfl

theorem Encloses.fits (h : d.Encloses e body) (hd : d.Guarded) : e.Fits body := by
  cases h with
  | text e t =>
    obtain ⟨ht⟩ := hd
    exact e.fits_escapeText ht
  | @steps e ss b hr =>
    obtain ⟨hs⟩ := hd
    exact e.fits_escapeNested (Step.contained_of_run ss hs contained_nil hr)
  | @callback e w b hw =>
    obtain _ | ⟨ds, hds, hc⟩ := hd
    rw [hc b hw]
    exact e.fits_escapeNested (contained_program hds)

end Edit

namespace Enclosure

/-- A fragment of a group opens that group, and the group ends after the body. -/
theorem Fits.takeGroup {g : Group} (h : (group g).Fits body) (rest : Text) :
    Group.takeOpener? (ofText ((group g).around body ++ rest)) =
      some (g, ofText (body ++ ')' :: rest)) ∧
    Source.takeGroup (ofText (body ++ ')' :: rest)) = (ofText body, ofText rest) := by
  refine ⟨?_, h.1.takeGroup rest⟩
  rw [ofText_around h.paired]
  refine takeOpener?_opener g ?_
  rw [ofText_append h.paired]
  obtain ⟨_, hh⟩ := h
  cases hb : ofText body with
  | nil => simp [closer, Group.closer, ofText_plain]
  | cons u us =>
    rw [hb] at hh
    exact hh

/-- A fragment of a set opens that set, and the set ends after the body. -/
theorem Fits.takeSet {negated : Bool} (h : (set negated).Fits body) (rest : Text) :
    ofText ((set negated).around body ++ rest) =
      (set negated).opener.map .plain ++ ofText (body ++ ']' :: rest) ∧
    Source.takeSet (ofText (body ++ ']' :: rest)) = (ofText body, ofText rest) := by
  refine ⟨ofText_around h.paired rest, ?_⟩
  rw [ofText_append h.1, ofText_plain (by decide), Source.takeSet, splitSet?_eq_some_iff.2 ⟨rfl, h.2⟩]
  rfl

end Enclosure

namespace Edit

/-- A guarded program, with bodies given as texts and callbacks nested to any depth, keeps what it
writes inside of every delimiter. A group around its text ends right after that text, whatever
follows. Every group or lookaround that it writes is read as that kind and ends after its escaped
body, and so does every set. -/
theorem takeGroup_program (ds : List Edit) (h : ∀ d ∈ ds, d.Guarded) (rest : Text) :
    takeGroup (ofText ((ds.foldl Builder.edit {}).text ++ ')' :: rest)) =
      (ofText (ds.foldl Builder.edit {}).text, ofText rest) ∧
    ∀ d ∈ ds, ∀ body : Text,
      (∀ g : Group, d.Encloses (.group g) body →
        d.alone? = some ((Enclosure.group g).around body) ∧
        Group.ofOpener? ((Enclosure.group g).around body ++ rest) = some g ∧
        Group.takeOpener? (ofText ((Enclosure.group g).around body ++ rest)) =
          some (g, ofText (body ++ ')' :: rest)) ∧
        takeGroup (ofText (body ++ ')' :: rest)) = (ofText body, ofText rest)) ∧
      (∀ negated : Bool, d.Encloses (.set negated) body →
        d.alone? = some ((Enclosure.set negated).around body) ∧
        ofText ((Enclosure.set negated).around body ++ rest) =
          (Enclosure.set negated).opener.map .plain ++ ofText (body ++ ']' :: rest) ∧
        takeSet (ofText (body ++ ']' :: rest)) = (ofText body, ofText rest)) := by
  refine ⟨(contained_program h).takeGroup rest, fun d hd body => ⟨fun g he => ?_, fun n he => ?_⟩⟩
  · obtain ⟨ho, ht⟩ := (he.fits (h d hd)).takeGroup rest
    exact ⟨he.alone, congrArg (Option.map Prod.fst) ho, ho, ht⟩
  · exact ⟨he.alone, (he.fits (h d hd)).takeSet rest⟩

/-- A lookahead whose callback starts with a question mark and holds a set with a group in it, and a
negated set whose callback goes on after a failure. -/
theorem takeGroup_program_lookahead :
    let steps : List Step :=
      [.token .lazy .none, .literal "a)".toList .none,
        .encloseSteps (.set false) [.enclose (.group .capturing) "]".toList]]
    let bracket := Step.literal "[".toList .none
    let failing := Step.literal "bc".toList (.exactly 2)
    let callback := do
      tryCatch failing.write fun _ => pure ()
      bracket.write
    let ds := [Edit.step (.encloseSteps (.group .lookahead) steps), .enclosing (.set true) callback]
    let body := "\\?a\\)[(\\])]".toList
    let rest := ")]z".toList
    (∀ d ∈ ds, d.Guarded) ∧
    takeGroup (ofText ("(?=\\?a\\)[(\\])])[^\\[]".toList ++ ')' :: rest)) =
      (ofText "(?=\\?a\\)[(\\])])[^\\[]".toList, ofText rest) ∧
    Group.ofOpener? ((Enclosure.group .lookahead).around body ++ rest) = some .lookahead ∧
    takeGroup (ofText (body ++ ')' :: rest)) = (ofText body, ofText rest) ∧
    takeSet (ofText ("\\[".toList ++ ']' :: rest)) = (ofText "\\[".toList, ofText rest) := by
  intro steps bracket failing callback ds body rest
  have hsteps : Step.AllGuarded steps :=
    ⟨trivial, (by decide : Paired _), ⟨(by decide : Paired _), trivial⟩, trivial⟩
  have hcallback : (Edit.enclosing (.set true) callback).Guarded := by
    refine .enclosing [.step failing, .step bracket] (fun d hd => ?_) fun b hb => ?_
    · simp only [List.mem_cons, List.not_mem_nil, or_false] at hd
      rcases hd with rfl | rfl
      · exact .step (by decide : Paired _)
      · exact .step (by decide : Paired _)
    · cases hb
      rfl
  have h : ∀ d ∈ ds, d.Guarded := by
    intro d hd
    simp only [ds, List.mem_cons, List.not_mem_nil, or_false] at hd
    rcases hd with rfl | rfl
    · exact .step hsteps
    · exact hcallback
  have he : (Edit.step (.encloseSteps (.group .lookahead) steps)).Encloses _ body :=
    .steps (b := ⟨"?a\\)[(\\])]".toList⟩) rfl
  have hw : (Edit.enclosing (.set true) callback).Encloses _ "\\[".toList :=
    .callback (b := ⟨"\\[".toList⟩) rfl
  obtain ⟨ht, hbodies⟩ := takeGroup_program ds h rest
  have hg := (hbodies _ (by simp [ds]) _).1 .lookahead he
  have hs := (hbodies _ (by simp [ds]) _).2 true hw
  exact ⟨h, ht, hg.2.1, hg.2.2.2, hs.2.2⟩

end Edit

end FluentRegex
