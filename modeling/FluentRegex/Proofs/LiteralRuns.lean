import FluentRegex.Proofs.LiteralText
import FluentRegex.Proofs.SourceParts
import Mathlib.Data.List.Forall2

/-!
How the literal text of a source is cut into calls. A run of literal text goes on as long as it can,
and only two things cut it: bounds, and a question mark, since each of them binds to a single unit.
What one run gives depends on the calls after it only through the first of them, so the calls of a
whole source are taken run by run.
-/

namespace FluentRegex

open Source Escape

/-! ### The units that a text holds -/

/-- Literal text takes the unit `u` of a source over as its unit `v`: as it is, or as the character
that it escapes, where writing the text can escape it again. -/
def SourceUnit.TakenAs (u v : SourceUnit) : Prop :=
  v = u ∨ ∃ c, (isLiteralSignificant c = true ∨ c = '-') ∧ u = .escaped c ∧ v = .plain c

/-- The units of the text are these units of a source, taken over one for one. -/
def Source.Holds (t : Text) (us : Source) : Prop :=
  List.Forall₂ SourceUnit.TakenAs us (ofText t)

namespace Source

variable {s t : Text} {us vs : Source}

theorem holds_nil : Holds [] [] :=
  .nil

theorem Holds.length (h : Holds t us) : (ofText t).length = us.length :=
  (List.Forall₂.length_eq h).symm

theorem Holds.ne_nil (h : Holds t us) (hu : us ≠ []) : t ≠ [] := by
  rintro rfl
  exact hu (List.forall₂_nil_right_iff.1 h)

theorem Holds.units_ne_nil (h : Holds t us) (ht : t ≠ []) : us ≠ [] := by
  rintro rfl
  rw [Holds, List.forall₂_nil_left_iff] at h
  exact ht (by rw [← text_ofText t, h]; rfl)

theorem Holds.paired (h : Holds t us) (hc : Closed us) : Paired t := by
  rw [paired_iff_closed]
  rw [Holds] at h
  generalize ofText t = vs at h
  induction h with
  | nil => exact closed_nil
  | @cons u v us vs huv _ ih =>
    obtain ⟨hu, hus⟩ := closed_cons.1 hc
    refine closed_cons.2 ⟨?_, ih hus⟩
    rcases huv with rfl | ⟨c, hchar, -, rfl⟩
    · exact hu
    · rintro ⟨rfl⟩
      exact absurd hchar (by decide)

theorem Holds.append (hs : Holds s us) (hp : Paired s) (ht : Holds t vs) :
    Holds (s ++ t) (us ++ vs) := by
  rw [Holds, ofText_append hp]
  exact List.rel_append hs ht

end Source

namespace Chain

variable {us : Source} {u : SourceUnit}

/-- Every piece of a rule is a single unit, the one that it is read off. -/
def LiteralRule.Faithful (rule : LiteralRule) : Prop :=
  ∀ run u us, Holds (rule.piece run u us) [u]

theorem holds_literalPiece (u : SourceUnit) : Holds (literalPiece u) [u] := by
  cases u with
  | plain c =>
    rw [Holds, literalPiece, ofText_singleton]
    exact .cons (.inl rfl) .nil
  | escaped c =>
    rw [Holds, literalPiece]
    split
    · next hc =>
      rw [ofText_singleton]
      exact .cons (.inr ⟨c, .inl hc, rfl, rfl⟩) .nil
    · exact .cons (.inl rfl) .nil

theorem faithful_outerLiterals : outerLiterals.Faithful :=
  fun _ u _ => holds_literalPiece u

theorem faithful_setLiterals (written : Text) : (setLiterals written).Faithful := by
  intro run u us
  by_cases hu : u = .escaped '-'
  · subst hu
    rw [Holds]
    simp only [setLiterals, if_true, hyphenPiece]
    split
    · exact .cons (.inl rfl) .nil
    · exact .cons (.inr ⟨'-', .inr rfl, rfl, rfl⟩) .nil
  · simpa only [setLiterals, if_neg hu] using holds_literalPiece u

/-! ### Runs -/

/-- Literals that are read off a source up to the source `rest`. Either one literal without bounds
holds everything up to the unit that ends the run, or the last unit before bounds or before a
question mark has a literal of its own. -/
inductive Run (ends : SourceUnit → Bool) : Source → List Literal → Source → Prop
  | whole {text : Text} {us rest : Source} (hu : us ≠ []) (ht : Holds text us)
      (hr : takeRange? rest = none)
      (he : ∀ v, rest.head? = some v → v ≠ .plain '?' ∧ ends v = true) :
      Run ends (us ++ rest) [⟨text, .none⟩] rest
  | split {before last : Text} {us vs rest : Source} {v : SourceUnit} {bounds : Quantifier}
      (hb : Holds before us) (hl : Holds last [v]) (hr : us ≠ [] → takeRange? (v :: vs) = none)
      (ht : takeRange vs = (bounds, rest))
      (hq : bounds ≠ .none ∨ rest.head? = some (.plain '?')) :
      Run ends (us ++ v :: vs) (Literal.split before last bounds) rest

/-- A run goes on from the units `ws` that its text holds so far. -/
theorem run_literalRun {rule : LiteralRule} (hf : rule.Faithful) (run : Text) (u : SourceUnit)
    (us : Source) : ∀ ws : Source, Holds run ws → (ws ≠ [] → takeRange? (u :: us) = none) →
      Closed ws → Proper (u :: us) →
      Run rule.ends (ws ++ u :: us) (literalRun rule run u us).1 (literalRun rule run u us).2 := by
  fun_induction literalRun rule run u us with
  | case1 us run u piece bounds rest hb =>
    intro ws hw hr hc h
    have ht : takeRange us = (bounds, rest) := by rw [takeRange, hb]; rfl
    exact .split hw (hf run u us) hr ht (.inl (ne_none_of_takeRange? hb))
  | case2 run u piece hb =>
    intro ws hw hr hc h
    have hwu := hw.append (hw.paired hc) (hf run u [])
    have hrun : Run rule.ends (ws ++ [u] ++ []) [⟨run ++ piece, .none⟩] [] :=
      .whole (by simp) hwu hb (by simp)
    simpa using hrun
  | case3 run u vs piece hb =>
    intro ws hw hr hc h
    have ht : takeRange (.plain '?' :: vs) = (.none, .plain '?' :: vs) := by rw [takeRange, hb]; rfl
    exact .split hw (hf run u (.plain '?' :: vs)) hr ht (.inr rfl)
  | case4 run u v vs hv he piece hb =>
    intro ws hw hr hc h
    have hwu := hw.append (hw.paired hc) (hf run u (v :: vs))
    have hrun : Run rule.ends (ws ++ [u] ++ v :: vs) [⟨run ++ piece, .none⟩] (v :: vs) :=
      .whole (by simp) hwu hb (by simpa using ⟨hv, he⟩)
    simpa using hrun
  | case5 run u v vs hv he piece hb ih =>
    intro ws hw hr hc h
    obtain ⟨hu, hvs⟩ := proper_cons.1 h
    have hwu := hw.append (hw.paired hc) (hf run u (v :: vs))
    -- Another unit follows, so `u` is no lone backslash and the text can be gone on with.
    have hu' : u ≠ .plain '\\' := fun e => by simpa using hu e
    have hcu : Closed (ws ++ [u]) := closed_append.2 ⟨hc, closed_cons.2 ⟨hu', closed_nil⟩⟩
    simpa using ih _ hwu (fun _ => hb) hcu hvs

end Chain

/-! ### Lists of calls -/

namespace Call

@[simp] theorem operation_plain (o : Operation) (args : List Argument) :
    (plain o args).operation = o := rfl

@[simp] theorem operation_callback (o : Operation) (args : List Argument) (body : List Call) :
    (callback o args body).operation = o := rfl

/-- The call has arguments after its text. -/
def Bounded (c : Call) : Prop :=
  1 < c.arguments.length

instance (c : Call) : Decidable c.Bounded :=
  inferInstanceAs (Decidable (1 < _))

def Begins (o : Operation) (cs : List Call) : Prop :=
  cs.head?.map operation = some o

@[simp] theorem begins_cons {o : Operation} {c : Call} {cs : List Call} :
    Begins o (c :: cs) ↔ c.operation = o := by
  simp [Begins]

/-- A call that writes literal text, before these calls in a list, holds units of the source, with
the bounds that follow them there: a single unit if it has bounds or if a question mark is written
next. The call after it writes literal text too only where one of them has to stand by itself. -/
def Placed (source : Source) (c : Call) (after : List Call) : Prop :=
  c.operation = .literal →
    (∃ (text : Text) (us vs : Source), us ≠ [] ∧ Holds text us ∧ us ++ vs <:+: source ∧
      c = .plain .literal (.text text :: (takeRange vs).1.arguments) ∧
      (c.Bounded ∨ Begins (.token .lazy) after → us.length = 1)) ∧
    ∀ (d : Call) (ds : List Call), after = d :: ds → d.operation = .literal →
      c.Bounded ∨ d.Bounded ∨ Begins (.token .lazy) ds

def AllPlaced (source : Source) : List Call → Prop
  | [] => True
  | c :: cs => c.Placed source cs ∧ AllPlaced source cs

variable {source us : Source} {c : Call} {cs ds : List Call}

theorem Placed.of_isInfix (h : c.Placed us cs) (hs : us <:+: source) : c.Placed source cs := by
  intro hc
  obtain ⟨⟨text, ws, vs, hw, ht, hi, e⟩, hd⟩ := h hc
  exact ⟨⟨text, ws, vs, hw, ht, hi.trans hs, e⟩, hd⟩

theorem AllPlaced.of_isInfix (h : AllPlaced us cs) (hs : us <:+: source) : AllPlaced source cs := by
  induction cs with
  | nil => trivial
  | cons c cs ih => exact ⟨h.1.of_isInfix hs, ih h.2⟩

theorem AllPlaced.at (h : AllPlaced source (cs ++ c :: ds)) : c.Placed source ds := by
  induction cs with
  | nil => exact h.1
  | cons d cs ih => exact ih h.2

theorem placed_of_ne (h : c.operation ≠ .literal) : c.Placed source cs :=
  fun e => absurd e h

theorem allPlaced_append (hc : ∀ c ∈ cs, c.operation ≠ .literal) (hd : AllPlaced source ds) :
    AllPlaced source (cs ++ ds) := by
  induction cs with
  | nil => exact hd
  | cons c cs ih => exact ⟨placed_of_ne (hc c (by simp)), ih fun d hd => hc d (by simp [hd])⟩

end Call

namespace Chain

open Call

@[simp] theorem Literal.operation_call (l : Literal) : l.call.operation = .literal := rfl

theorem Literal.bounded_call {l : Literal} : l.call.Bounded ↔ l.bounds ≠ .none := by
  obtain ⟨text, _ | low, _ | high⟩ := l <;>
    simp [Bounded, Literal.call, Call.arguments, Quantifier.arguments, Quantifier.bounds,
      Quantifier.none]

variable {ends : SourceUnit → Bool} {us rest : Source} {ls : List Literal} {cs : List Call}

/-- The first of the calls tells what the source begins with. -/
structure Heads (ends : SourceUnit → Bool) (us : Source) (cs : List Call) : Prop where
  lazy : Begins (.token .lazy) cs ↔ us.head? = some (.plain '?')
  literal : Begins .literal cs → ∃ v, us.head? = some v ∧ ends v = false

/-- The last unit before bounds or before a question mark is placed by itself. -/
theorem placed_last {last : Text} {vs : Source} {v : SourceUnit} {bounds : Quantifier}
    (hl : Holds last [v]) (ht : takeRange vs = (bounds, rest))
    (hq : bounds ≠ .none ∨ rest.head? = some (.plain '?')) (hh : Heads ends rest cs) :
    (Literal.call ⟨last, bounds⟩).Placed (v :: vs) cs := by
  refine fun _ => ⟨⟨last, [v], vs, by simp, hl, List.infix_rfl, by rw [ht]; rfl,
    fun _ => rfl⟩, ?_⟩
  rintro d ds rfl hd
  rcases hq with hq | hq
  · exact .inl (Literal.bounded_call.2 hq)
  · have hz := hh.lazy.2 hq
    simp [hd] at hz

/-- Text without bounds is placed where no range and no question mark follows it, before calls that
begin with literal text only if that has to stand by itself. -/
theorem placed_unbounded {text : Text} (hu : us ≠ []) (ht : Holds text us)
    (hr : takeRange? rest = none) (hz : ¬ Begins (.token .lazy) cs)
    (hd : ∀ d ds, cs = d :: ds → d.operation = .literal →
      d.Bounded ∨ Begins (.token .lazy) ds) :
    (Literal.call ⟨text, .none⟩).Placed (us ++ rest) cs := by
  have hn : (takeRange rest).1 = .none := by rw [takeRange, hr]; rfl
  have hb : ¬ (Literal.call ⟨text, .none⟩).Bounded := fun hb => Literal.bounded_call.1 hb rfl
  exact fun _ => ⟨⟨text, us, rest, hu, ht, List.infix_rfl, by rw [hn]; rfl,
    fun h => absurd h (not_or.2 ⟨hb, hz⟩)⟩, fun d ds e ho => .inr (hd d ds e ho)⟩

/-- The calls of a run are placed before calls that are read off the rest. -/
theorem Run.allPlaced (h : Run ends us ls rest) (hh : Heads ends rest cs)
    (hcs : AllPlaced us cs) : AllPlaced us (ls.map Literal.call ++ cs) := by
  cases h with
  | @whole text us rest hu ht hr he =>
    refine ⟨placed_unbounded hu ht hr (fun hz => ?_) fun d ds e ho => ?_, hcs⟩
    · exact (he _ (hh.lazy.1 hz)).1 rfl
    · obtain rfl : cs = d :: ds := e
      obtain ⟨v, hv, hn⟩ := hh.literal (begins_cons.2 ho)
      rw [(he v hv).2] at hn
      cases hn
  | @split before last us vs rest v bounds hb hl hr ht hq =>
    -- The literal before the last one has no bounds: it is the last one that stands by itself.
    have hlast := (placed_last hl ht hq hh).of_isInfix (List.suffix_append us _).isInfix
    rw [Literal.split]
    split
    · exact ⟨hlast, hcs⟩
    · next hne =>
      have hu : us ≠ [] := hb.units_ne_nil (by simpa using hne)
      refine ⟨placed_unbounded hu hb (hr hu) ?_ ?_, hlast, hcs⟩
      · simp
      · rintro d ds ⟨⟩ -
        exact hq.imp Literal.bounded_call.2 hh.lazy.2

/-! ### The calls of a source -/

theorem exists_literalRun_cons (rule : LiteralRule) (run : Text) (u : SourceUnit) (us : Source) :
    ∃ l ls, (literalRun rule run u us).1 = l :: ls := by
  fun_induction literalRun rule run u us with
  | case1 us run u piece bounds rest hb =>
    rw [Literal.split]
    split <;> exact ⟨_, _, rfl⟩
  | case2 run u piece hb => exact ⟨_, _, rfl⟩
  | case3 run u vs piece hb =>
    rw [Literal.split]
    split <;> exact ⟨_, _, rfl⟩
  | case4 run u v vs hv he piece hb => exact ⟨_, _, rfl⟩
  | case5 run u v vs hv he piece hb ih => exact ih

variable {u : SourceUnit} {c : Call}

theorem heads_nil : Heads ends [] [] :=
  ⟨by simp [Begins], by simp [Begins]⟩

theorem heads_of_ne (hl : c.operation ≠ .literal)
    (hz : c.operation = .token .lazy ↔ u = .plain '?') : Heads ends (u :: us) (c :: cs) where
  lazy := by simpa using hz
  literal h := absurd (begins_cons.1 h) hl

theorem heads_token {k : Token} {args : List Argument} (h : Token.ofUnit? u = some k) :
    Heads ends (u :: us) (.plain (.token k) args :: cs) := by
  refine heads_of_ne (by simp) ?_
  rw [Token.ofUnit?_eq_some_iff.1 h]
  simp only [operation_plain, Operation.token.injEq]
  exact ⟨fun e => by rw [e]; rfl, fun e => Token.unit_injective e⟩

theorem heads_literals {rule : LiteralRule} (ht : Token.ofUnit? u = none) (he : ends u = false) :
    Heads ends (u :: us) ((literalRun rule [] u us).1.map Literal.call ++ cs) := by
  obtain ⟨l, ls, e⟩ := exists_literalRun_cons rule [] u us
  have hu : u ≠ .plain '?' := by
    rintro rfl
    cases ht
  rw [e]
  exact ⟨by simpa using hu, fun _ => ⟨u, rfl, he⟩⟩

@[simp] theorem operation_setCall (negated : Bool) (body : Source) :
    (setCall negated body).operation = .enclose (.set negated) := by
  rw [setCall]
  split <;> rfl

theorem heads_callsOfSource (us : Source) : Heads outerLiterals.ends us (callsOfSource us) := by
  fun_cases callsOfSource us with
  | case1 => exact heads_nil
  | case2 u us g inner hg =>
    refine heads_of_ne (by simp) (iff_of_false (by simp) ?_)
    rintro rfl
    rw [Group.takeOpener?_eq_none_iff.2 (by decide)] at hg
    cases hg
  | case3 us => exact heads_of_ne (by simp) (by simp)
  | case4 u us hg hs k hk => exact heads_token hk
  | case5 u us hg hs hk =>
    refine heads_literals hk ?_
    simp [outerLiterals, hk, hs, Group.takeOpener?_eq_none_iff.1 hg]

theorem heads_setCalls (written written' : Text) (us : Source) :
    Heads (setLiterals written).ends us (setCalls written' us) := by
  cases us with
  | nil =>
    rw [setCalls]
    exact heads_nil
  | cons u us =>
    rw [setCalls, setStep]
    cases hk : Token.ofUnit? u with
    | some k => exact heads_token hk
    | none => exact heads_literals hk (by simp [setLiterals, hk])

/-! ### All calls are placed -/

theorem allPlaced_literalRun {rule : LiteralRule} (hf : rule.Faithful) (h : Proper (u :: us))
    (hh : Heads rule.ends (literalRun rule [] u us).2 cs)
    (hcs : AllPlaced (literalRun rule [] u us).2 cs) :
    AllPlaced (u :: us) ((literalRun rule [] u us).1.map Literal.call ++ cs) := by
  have hrun := run_literalRun hf [] u us [] holds_nil (by simp) closed_nil h
  have hs : (literalRun rule [] u us).2 <:+ u :: us :=
    (suffix_literalRun rule [] u us).trans (List.suffix_cons u us)
  exact hrun.allPlaced hh (hcs.of_isInfix hs.isInfix)

theorem operation_rangeCalls_ne (q : Quantifier) : ∀ c ∈ rangeCalls q, c.operation ≠ .literal := by
  rw [rangeCalls]
  split <;> simp

theorem allPlaced_setCalls (written : Text) {us : Source} (h : Proper us) :
    AllPlaced us (setCalls written us) := by
  fun_induction setCalls written us with
  | case1 => trivial
  | case2 written u us _ ih =>
    have hus := (proper_cons.1 h).2
    cases hk : Token.ofUnit? u with
    | some k =>
      have hs := suffix_tokenBounds k us
      rw [setStep_token hk] at ih ⊢
      exact ⟨placed_of_ne (by simp),
        (ih (hus.of_suffix hs)).of_isInfix (hs.trans (List.suffix_cons u us)).isInfix⟩
    | none =>
      have hs := suffix_literalRun (setLiterals written) [] u us
      rw [setStep_literals hk] at ih ⊢
      exact allPlaced_literalRun (faithful_setLiterals written) h (heads_setCalls _ _ _)
        (ih (hus.of_suffix hs))

theorem allPlaced_callsOfSource {us : Source} (h : Proper us) :
    AllPlaced us (callsOfSource us) := by
  fun_induction callsOfSource us with
  | case1 => trivial
  | case2 u us g inner hg rest ihb ihr =>
    have hi := (cutAt_takeGroup inner).proper (h.of_takeOpener? hg)
    have hs := suffix_afterGroup hg
    have hrest := (ihr hi.2.takeRange).of_isInfix hs.isInfix
    exact ⟨placed_of_ne (by simp), allPlaced_append (operation_rangeCalls_ne _) hrest⟩
  | case3 us inner rest hg ih =>
    have hi := (cutAt_takeSet inner).proper h.setInner
    have hs := suffix_afterSet us
    have hrest := (ih hi.2.takeRange).of_isInfix hs.isInfix
    exact ⟨placed_of_ne (by simp),
      allPlaced_append (operation_rangeCalls_ne _) hrest⟩
  | case4 u us hg hs k hk ih =>
    have hs := suffix_tokenBounds k us
    exact ⟨placed_of_ne (by simp), (ih ((proper_cons.1 h).2.of_suffix hs)).of_isInfix
      (hs.trans (List.suffix_cons u us)).isInfix⟩
  | case5 u us hg hs hk ih =>
    have hs := suffix_literalRun outerLiterals [] u us
    exact allPlaced_literalRun faithful_outerLiterals h (heads_callsOfSource _)
      (ih ((proper_cons.1 h).2.of_suffix hs))

/-- Literal text in the chain of a source, in its own list of calls and in every callback. A call
that writes it holds consecutive units of the source, at least one, and has the bounds that stand
behind them there. It holds a single unit if it has bounds, or if a question mark is written next.
Two such calls stand next to each other only where one of them must hold a single unit for this
reason. -/
theorem literals_ofSource (source flags : Text) (cs : List Call)
    (hcs : cs = (ofSource source flags).calls ∨ Within cs (ofSource source flags).calls) :
    (∀ (before after : List Call) (c : Call), cs = before ++ c :: after → c.operation = .literal →
      ∃ (text : Text) (us vs : Source), text ≠ [] ∧ us ≠ [] ∧ Holds text us ∧
        us ++ vs <:+: ofText source ∧
        c = .plain .literal (.text text :: (takeRange vs).1.arguments) ∧
        (c.Bounded ∨ Begins (.token .lazy) after → us.length = 1 ∧ (ofText text).length = 1)) ∧
    ∀ (before after : List Call) (c d : Call), cs = before ++ c :: d :: after →
      c.operation = .literal → d.operation = .literal →
      c.Bounded ∨ d.Bounded ∨ Begins (.token .lazy) after := by
  have hp := proper_ofText source
  have hall : AllPlaced (ofText source) cs := by
    rcases hcs with rfl | hw
    · exact allPlaced_callsOfSource hp
    · obtain ⟨vs, hv, rfl | rfl⟩ := exists_of_within hw (.inl rfl)
      · exact (allPlaced_callsOfSource (hp.of_isInfix hv)).of_isInfix hv
      · exact (allPlaced_setCalls [] (hp.of_isInfix hv)).of_isInfix hv
  constructor
  · rintro before after c rfl hc
    obtain ⟨⟨text, us, vs, hu, ht, hi, e, hone⟩, -⟩ := hall.at hc
    refine ⟨text, us, vs, ht.ne_nil hu, hu, ht, hi, e, fun h => ?_⟩
    exact ⟨hone h, by rw [ht.length, hone h]⟩
  · rintro before after c d rfl hc hd
    exact (hall.at hc).2 d after rfl hd

/-- In a group that holds `ab{02}c\.?`, the bounds leave the second letter by itself, and the
question mark leaves the period by itself. -/
theorem literals_ofSource_group :
    let body : List Call := [.plain .literal [.text ['a']],
      .plain .literal [.text ['b'], .number 2], .plain .literal [.text ['c']],
      .plain .literal [.text ['.']], .plain (.token .lazy) []]
    Within body (ofSource "(ab\x7b02\x7dc\\.?)".toList []).calls ∧
      (∃ (text : Text) (us vs : Source), text ≠ [] ∧ us ≠ [] ∧ Holds text us ∧
        us ++ vs <:+: ofText "(ab\x7b02\x7dc\\.?)".toList ∧
        Call.plain .literal [.text ['b'], .number 2] =
          .plain .literal (.text text :: (takeRange vs).1.arguments) ∧
        us.length = 1 ∧ (ofText text).length = 1) ∧
      ((Call.plain .literal [.text ['c']]).Bounded ∨ (Call.plain .literal [.text ['.']]).Bounded ∨
        Begins (.token .lazy) [.plain (.token .lazy) []]) := by
  intro body
  have hw : Within body (ofSource "(ab\x7b02\x7dc\\.?)".toList []).calls :=
    @Call.Within.here _ (.enclose (.group .capturing)) [] _ (by decide +kernel)
  obtain ⟨hone, hnext⟩ := literals_ofSource "(ab\x7b02\x7dc\\.?)".toList [] body (.inr hw)
  obtain ⟨text, us, vs, ht, hu, hh, hi, e, h⟩ := hone [.plain .literal [.text ['a']]] _ _ rfl rfl
  refine ⟨hw, ⟨text, us, vs, ht, hu, hh, hi, e, h (.inl (by decide))⟩, ?_⟩
  exact hnext [.plain .literal [.text ['a']], .plain .literal [.text ['b'], .number 2]] _ _ _
    rfl rfl rfl

end Chain

end FluentRegex
