import FluentRegex.Chain.Evaluate
import FluentRegex.Proofs.FlagSets
import FluentRegex.Proofs.Layout
import FluentRegex.Proofs.Normalisation
import FluentRegex.Proofs.Reading

/-!
From a source through the text of its chain back to a pattern. Both texts of the chain are evaluated
to the pattern of the rebuilt source under the same flags, so exactly the canonical sources come
back.
-/

namespace FluentRegex

open Source

/-! ### The chain of a source -/

namespace Chain

theorem allOneBody_append {cs ds : List Call} (hc : Call.AllOneBody cs) (hd : Call.AllOneBody ds) :
    Call.AllOneBody (cs ++ ds) := by
  induction cs with
  | nil => exact hd
  | cons c cs ih => exact ⟨hc.1, ih hc.2⟩

theorem allOneBody_literals (ls : List Literal) : Call.AllOneBody (ls.map Literal.call) := by
  induction ls with
  | nil => trivial
  | cons l ls ih => exact ⟨trivial, ih⟩

theorem allOneBody_rangeCalls (q : Quantifier) : Call.AllOneBody (rangeCalls q) := by
  rw [rangeCalls]
  split
  · trivial
  · exact ⟨trivial, trivial⟩

theorem allOneBody_setCalls (written : Text) (us : Source) :
    Call.AllOneBody (setCalls written us) := by
  fun_induction setCalls written us with
  | case1 => trivial
  | case2 written u us _ ih =>
    refine allOneBody_append ?_ ih
    rw [setStep]
    split
    · exact ⟨trivial, trivial⟩
    · exact allOneBody_literals _

theorem oneBody_setCall (negated : Bool) (body : Source) : (setCall negated body).OneBody := by
  rw [setCall]
  split
  · exact ⟨rfl, allOneBody_setCalls [] body⟩
  · trivial

/-- No call for a source has both a callback and other arguments. -/
theorem allOneBody_callsOfSource (us : Source) : Call.AllOneBody (callsOfSource us) := by
  fun_induction callsOfSource us with
  | case1 => trivial
  | case2 u us g inner hg rest ihb ihr =>
    exact ⟨⟨rfl, ihb⟩, allOneBody_append (allOneBody_rangeCalls _) ihr⟩
  | case3 us inner rest hg ih =>
    exact ⟨oneBody_setCall _ _, allOneBody_append (allOneBody_rangeCalls _) ih⟩
  | case4 u us hg hs k hk ih => exact ⟨trivial, ih⟩
  | case5 u us hg hs hk ih => exact allOneBody_append (allOneBody_literals _) ih

/-- A text with the lexemes of a chain is evaluated by running the calls, where none of them has
both a callback and other arguments. -/
theorem evaluate_of_allOneBody {c : Chain} {t : Text} (h : Lexes t c.lexemes)
    (hc : Call.AllOneBody c.calls) :
    evaluate t =
      match Builder.callAll {} c.calls with
      | .ok b => (b.done (c.flags.getD [])).mapError (.chain ∘ .pattern)
      | .error e => .error (.chain (.call e)) := by
  rw [evaluate, read_of_lexes h, (shown_eq_iff c).2 hc]
  simp only [toPattern]
  cases Builder.callAll {} c.calls with
  | error e => rfl
  | ok b =>
    change Except.mapError _ (Except.mapError _ (b.done _)) = Except.mapError _ (b.done _)
    cases b.done (c.flags.getD []) <;> rfl

/-- A text with the lexemes of the chain of a source is evaluated to the pattern of the rebuilt
source. -/
theorem evaluate_of_lexes {source flags t : Text} (h : Lexes t (ofSource source flags).lexemes) :
    evaluate t =
      (Pattern.make (text (rebuilt (ofText source))) flags).mapError (.chain ∘ .pattern) := by
  rw [evaluate_of_allOneBody h (allOneBody_callsOfSource _), callAll_ofSource]
  rfl

end Chain

/-! ### Patterns -/

namespace Pattern

theorem make_self (p : Pattern) : make p.source p.flags.text = .ok p := by
  rw [make, Flags.parse_text]
  simp [p.accepted]

theorem source_of_make {source flags : Text} {p : Pattern} (h : make source flags = .ok p) :
    p.source = source := by
  unfold make at h
  split at h
  · cases h
  · split at h
    · cases h
      rfl
    · cases h

/-- A pattern comes back from its description exactly if its source is rebuilt as it is. -/
theorem evaluate_describe_eq_iff (p : Pattern) :
    evaluate p.describe = .ok p ↔ text (rebuilt (ofText p.source)) = p.source := by
  rw [describe, chain, Chain.evaluate_of_lexes (Chain.lexes_pretty _)]
  constructor
  · intro h
    cases e : make (text (rebuilt (ofText p.source))) p.flags.text with
    | error err => rw [e] at h; cases h
    | ok p' =>
      rw [e] at h
      cases h
      exact (source_of_make e).symm
  · intro h
    rw [h, make_self]
    rfl

/-- A pattern comes back from its description exactly if its source is canonical. -/
theorem evaluate_describe_iff (p : Pattern) :
    evaluate p.describe = .ok p ↔ Canonical (ofText p.source) := by
  have hc : Closed (ofText p.source) := p.paired_source
  rw [p.evaluate_describe_eq_iff, canonical_iff]
  constructor
  · intro h
    have := congrArg ofText h
    rw [(canonical_rebuilt hc).closed.proper] at this
    exact ⟨hc, this⟩
  · rintro ⟨-, h⟩
    rw [h, text_ofText]

end Pattern

/-- A canonical source is exactly what its chain builds, in either layout. -/
theorem evaluate_canonical {us : Source} (h : Canonical us) (flags : Text) :
    Builder.callAll {} (Chain.ofSource us.text flags).calls = .ok ⟨us.text⟩ ∧
    evaluate (Chain.ofSource us.text flags).pretty =
      (Pattern.make us.text flags).mapError (.chain ∘ .pattern) ∧
    evaluate (Chain.ofSource us.text flags).print =
      (Pattern.make us.text flags).mapError (.chain ∘ .pattern) ∧
    ∀ p : Pattern, p.source = us.text → evaluate p.describe = .ok p := by
  have hu : ofText us.text = us := h.closed.proper
  have hr : text (rebuilt (ofText us.text)) = us.text := by rw [hu, h.rebuilt]
  refine ⟨?_, ?_, ?_, fun p hp => ?_⟩
  · rw [Chain.callAll_ofSource, hr]
  · rw [Chain.evaluate_of_lexes (Chain.lexes_pretty _), hr]
  · rw [Chain.evaluate_of_lexes (Chain.lexes_print _), hr]
  · rw [p.evaluate_describe_eq_iff, hp, hr]

/-- An anchor, a set with bounds in a lookahead, and an escaped operator come back. -/
theorem evaluate_canonical_lookahead :
    ∃ p : Pattern, p.source = "^(?=[\\d.]\x7b2\x7d)a\\*$".toList ∧ evaluate p.describe = .ok p := by
  have h : Canonical (ofText "^(?=[\\d.]\x7b2\x7d)a\\*$".toList) := by decide +kernel
  refine ⟨⟨_, Flags.empty, by decide +kernel⟩, rfl, ?_⟩
  exact (evaluate_canonical h []).2.2.2 _ (text_ofText _).symm

end FluentRegex
