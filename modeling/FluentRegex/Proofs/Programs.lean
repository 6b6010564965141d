import FluentRegex.Proofs.Evaluation

/-!
Programs of building steps as chains. Every step has a call, with its bounds as arguments and the
steps of its callback as a body. The builder runs a callback inside of the enclosure, where a call
runs it beforehand and hands over the text; both run it on a builder of its own, so the text and
the first error are the same. There is one difference: a step can put bounds on any token, and the
call of a token that takes none is refused with them.
-/

namespace FluentRegex

namespace Step

/-! ### What becomes of a program -/

mutual

/-- Bounds are put only on tokens that take them, in callbacks as well. -/
def Taken : Step → Prop
  | .token k q => k.Takes q
  | .encloseSteps _ ss => AllTaken ss
  | _ => True

def AllTaken : List Step → Prop
  | [] => True
  | s :: ss => s.Taken ∧ AllTaken ss

end

theorem allTaken_append {ss ts : List Step} :
    AllTaken (ss ++ ts) ↔ AllTaken ss ∧ AllTaken ts := by
  induction ss with
  | nil => simp [AllTaken]
  | cons s ss ih => simp [AllTaken, ih, and_assoc]

/-- The program runs and leaves this builder, with bounds only where they are taken. -/
structure Succeeds (ss : List Step) (b : Builder) : Prop where
  run : Builder.run {} ss = .ok b
  taken : AllTaken ss

/-- The first step of the program that goes wrong gives this error: a literal fails, bounds are put
on a token that takes none, or a callback goes wrong, with the first error in it. -/
inductive FirstFailure : List Step → CallError → Prop
  | literal {before after : List Step} {b : Builder} {t : Text} {q : Quantifier} {e : BuildError}
      (hb : Succeeds before b) (h : b.literal t q = .error e) :
      FirstFailure (before ++ .literal t q :: after) (.build e)
  | token {before after : List Step} {b : Builder} {k : Token} {q : Quantifier}
      (hb : Succeeds before b) (h : ¬ k.Takes q) :
      FirstFailure (before ++ .token k q :: after) (.noArguments (.token k) q.arguments.length)
  | callback {before body after : List Step} {b : Builder} {enclosure : Enclosure} {e : CallError}
      (hb : Succeeds before b) (h : FirstFailure body e) :
      FirstFailure (before ++ .encloseSteps enclosure body :: after) e

variable {before : List Step} {b b' : Builder} {s : Step}

theorem succeeds_nil : Succeeds [] {} :=
  ⟨Builder.run_nil {}, trivial⟩

theorem Succeeds.snoc (hb : Succeeds before b) (hs : b.apply s = .ok b') (ht : s.Taken) :
    Succeeds (before ++ [s]) b' := by
  refine ⟨?_, allTaken_append.2 ⟨hb.taken, ht, trivial⟩⟩
  rw [Builder.run_append, hb.run]
  simp only [Builder.run_cons, hs]
  exact Builder.run_nil b'

mutual

/-- After steps that have succeeded a step does so too, or it is the first to go wrong. -/
theorem apply_or_firstFailure : (s : Step) → {before : List Step} → {b : Builder} →
    Succeeds before b →
    (∃ b', b.apply s = .ok b' ∧ s.Taken) ∨ ∃ e, ∀ after, FirstFailure (before ++ s :: after) e
  | .token k q, _, b, hb => by
    by_cases hk : k.Takes q
    · exact .inl ⟨b.token k q, rfl, hk⟩
    · exact .inr ⟨_, fun _ => .token hb hk⟩
  | .quantifiedString t q, _, b, _ => .inl ⟨b.quantifiedString t q, rfl, trivial⟩
  | .literal t q, _, b, hb => by
    cases hl : b.literal t q with
    | ok b' => exact .inl ⟨b', hl, trivial⟩
    | error e => exact .inr ⟨.build e, fun _ => .literal hb hl⟩
  | .enclose e t, _, b, _ => .inl ⟨b.append (e.wrapText t), rfl, trivial⟩
  | .encloseSteps e body, _, b, hb => by
    rcases run_or_firstFailure body succeeds_nil with ⟨inner, hi⟩ | ⟨err, he⟩
    · refine .inl ⟨b.append (e.wrapNested inner.text), ?_, hi.taken⟩
      rw [Builder.apply_encloseSteps, show Builder.run {} body = _ from hi.run]
      rfl
    · exact .inr ⟨err, fun _ => .callback hb he⟩

theorem run_or_firstFailure : (ss : List Step) → {before : List Step} → {b : Builder} →
    Succeeds before b →
    (∃ b', Succeeds (before ++ ss) b') ∨ ∃ e, FirstFailure (before ++ ss) e
  | [], before, b, hb => .inl ⟨b, by rwa [List.append_nil]⟩
  | s :: ss, before, b, hb => by
    rcases apply_or_firstFailure s hb with ⟨b', hs, ht⟩ | ⟨e, he⟩
    · have h := run_or_firstFailure ss (hb.snoc hs ht)
      rwa [List.append_assoc, List.singleton_append] at h
    · exact .inr ⟨e, he ss⟩

end

/-! ### The calls of a program -/

mutual

def call : Step → Call
  | .token k q => .plain (.token k) q.arguments
  | .quantifiedString t q => .plain .quantifiedString (.text t :: q.arguments)
  | .literal t q => .plain .literal (.text t :: q.arguments)
  | .enclose e t => .plain (.enclose e) [.text t]
  | .encloseSteps e ss => .callback (.enclose e) [] (calls ss)

def calls : List Step → List Call
  | [] => []
  | s :: ss => s.call :: calls ss

end

theorem calls_append (ss ts : List Step) : calls (ss ++ ts) = calls ss ++ calls ts := by
  induction ss with
  | nil => rfl
  | cons s ss ih => rw [List.cons_append, calls, calls, ih, List.cons_append]

mutual

theorem oneBody_call : (s : Step) → s.call.OneBody
  | .token _ _ => trivial
  | .quantifiedString _ _ => trivial
  | .literal _ _ => trivial
  | .enclose _ _ => trivial
  | .encloseSteps _ ss => ⟨rfl, allOneBody_calls ss⟩

theorem allOneBody_calls : (ss : List Step) → Call.AllOneBody (calls ss)
  | [] => trivial
  | s :: ss => ⟨oneBody_call s, allOneBody_calls ss⟩

end

end Step

/-- Bounds that have gone through arguments write what they wrote before, and are absent if they
were. -/
theorem Quantifier.exists_ofArguments (q : Quantifier) :
    ∃ q' : Quantifier, ofArguments q.arguments = .ok q' ∧ q'.suffix = q.suffix ∧
      q'.isNone = q.isNone := by
  refine ⟨_, ofArguments_arguments q, ?_⟩
  rcases q with ⟨_ | low, _ | high⟩ <;> exact ⟨rfl, rfl⟩

theorem Call.tokenBounds_of_not_takes {k : Token} {q : Quantifier} (hk : ¬ k.Takes q) :
    tokenBounds k q.arguments = .error (.noArguments (.token k) q.arguments.length) := by
  obtain ⟨hq, hk⟩ := not_or.1 hk
  have hn : q.isNone = false := Bool.eq_false_iff.2 fun h => hq (Quantifier.isNone_iff.1 h)
  rw [tokenBounds, if_pos]
  simp [hk, hn]

namespace Builder

open Step (Taken AllTaken)

mutual

theorem call_call : (s : Step) → s.Taken → (b : Builder) →
    b.call s.call = (b.apply s).mapError .build
  | .token k q, hk, b => by
    obtain ⟨q', hq, hs, -⟩ := q.exists_ofArguments
    simp only [Step.call, call, callPlain, Call.tokenBounds_of_takes hk, hq, apply, token,
      quantifiedString, Except.map, Except.mapError, hs]
  | .quantifiedString t q, _, b => by
    obtain ⟨q', hq, hs, -⟩ := q.exists_ofArguments
    simp only [Step.call, call, callPlain, Call.textBounds, hq, apply, quantifiedString,
      Except.map, Except.mapError, hs]
  | .literal t q, _, b => by
    obtain ⟨q', hq, hs, hn⟩ := q.exists_ofArguments
    have hl : b.literal t q' = b.literal t q := by
      simp only [literal, quantifiedString, hs, hn]
    simp only [Step.call, call, callPlain, Call.textBounds, hq, apply]
    exact congrArg (Except.mapError CallError.build) hl
  | .enclose e t, _, b => rfl
  | .encloseSteps e ss, h, b => by
    rw [Step.call, call, callEnclosure_callback, callAll_calls ss h {}, apply_encloseSteps]
    cases run {} ss <;> rfl

theorem callAll_calls : (ss : List Step) → AllTaken ss → (b : Builder) →
    b.callAll (Step.calls ss) = (b.run ss).mapError .build
  | [], _, b => by
    rw [Step.calls, callAll_nil, run_nil]
    rfl
  | s :: ss, h, b => by
    rw [Step.calls, callAll_cons, run_cons, call_call s h.1 b]
    cases b.apply s with
    | ok b' => exact callAll_calls ss h.2 b'
    | error e => rfl

end

end Builder

namespace Step

variable {ss before after : List Step} {b : Builder} {s : Step} {e : CallError}

theorem Succeeds.callAll (h : Succeeds ss b) : Builder.callAll {} (calls ss) = .ok b := by
  rw [Builder.callAll_calls ss h.taken, h.run]
  rfl

/-- Calls stop with the first one that fails. -/
theorem Succeeds.callAll_error (hb : Succeeds before b) (h : b.call s.call = .error e) :
    Builder.callAll {} (calls (before ++ s :: after)) = .error e := by
  rw [calls_append, calls, Builder.callAll_append, hb.callAll]
  simp only [Builder.callAll_cons, h]

theorem FirstFailure.callAll (h : FirstFailure ss e) :
    Builder.callAll {} (calls ss) = .error e := by
  induction h with
  | literal hb h =>
    refine hb.callAll_error ?_
    rw [Builder.call_call _ (by trivial), Builder.apply, h]
    rfl
  | token hb h =>
    refine hb.callAll_error ?_
    simp only [call, Builder.call, Builder.callPlain, Call.tokenBounds_of_not_takes h]
    rfl
  | callback hb _ ih =>
    refine hb.callAll_error ?_
    rw [call, Builder.call, Builder.callEnclosure_callback, ih]
    rfl

end Step

namespace Chain

def ofSteps (steps : List Step) (flags : Text) : Chain where
  calls := Step.calls steps
  flags := some flags

theorem read_print_ofSteps (steps : List Step) (flags : Text) :
    read (ofSteps steps flags).print = .ok (ofSteps steps flags) := by
  have hs : (ofSteps steps flags).shown = ofSteps steps flags :=
    (shown_eq_iff _).2 (Step.allOneBody_calls steps)
  rw [read_of_lexes (lexes_print _), hs]

theorem evaluate_print_ofSteps (steps : List Step) (flags : Text) :
    evaluate (ofSteps steps flags).print =
      match Builder.callAll {} (Step.calls steps) with
      | .ok b => (b.done flags).mapError (.chain ∘ .pattern)
      | .error e => .error (.chain (.call e)) := by
  rw [evaluate_of_allOneBody (lexes_print _) (Step.allOneBody_calls steps)]
  rfl

/-- The text of the chain of a program reads back as that chain. If bounds are put only on tokens
that take them, running its calls is running the program, in its errors too. In any case the
program succeeds, and so do the calls, with the same builder, and the text is evaluated to the
pattern, or to the error, of what is built; or a first step goes wrong, and then the calls and the
evaluation fail with its error. -/
theorem evaluate_ofSteps (steps : List Step) (flags : Text) :
    read (ofSteps steps flags).print = .ok (ofSteps steps flags) ∧
    (Step.AllTaken steps →
      Builder.callAll {} (ofSteps steps flags).calls =
        (Builder.run {} steps).mapError .build) ∧
    (∀ b, Step.Succeeds steps b →
      Builder.callAll {} (ofSteps steps flags).calls = .ok b ∧
      evaluate (ofSteps steps flags).print = (b.done flags).mapError (.chain ∘ .pattern)) ∧
    (∀ e, Step.FirstFailure steps e →
      Builder.callAll {} (ofSteps steps flags).calls = .error e ∧
      evaluate (ofSteps steps flags).print = .error (.chain (.call e))) ∧
    ((∃ b, Step.Succeeds steps b) ∨ ∃ e, Step.FirstFailure steps e) := by
  refine ⟨read_print_ofSteps steps flags, fun ht => Builder.callAll_calls steps ht {},
    fun b hb => ⟨hb.callAll, ?_⟩, fun e he => ⟨he.callAll, ?_⟩, ?_⟩
  · rw [evaluate_print_ofSteps, hb.callAll]
  · rw [evaluate_print_ofSteps, he.callAll]
  · exact Step.run_or_firstFailure steps Step.succeeds_nil

/-- A lone upper bound goes through the arguments of a call as a whole range, and a literal of two
atoms with bounds fails in a callback as it does outside of one. -/
theorem evaluate_ofSteps_severalAtoms :
    Step.Succeeds [.literal ['-'] ⟨none, some 2⟩] ⟨"-\x7b0,2\x7d".toList⟩ ∧
    Builder.callAll {} (ofSteps [.literal ['-'] ⟨none, some 2⟩] []).calls =
      .ok ⟨"-\x7b0,2\x7d".toList⟩ ∧
    Step.AllTaken [.encloseSteps (.group .capturing) [.literal ['a', 'b'] (.exactly 2)]] ∧
    Builder.callAll {}
      (ofSteps [.encloseSteps (.group .capturing) [.literal ['a', 'b'] (.exactly 2)]] []).calls =
      .error (.build (.severalAtoms ['a', 'b'])) ∧
    Step.FirstFailure [.encloseSteps (.group .capturing) [.literal ['a', 'b'] (.exactly 2)]]
      (.build (.severalAtoms ['a', 'b'])) ∧
    evaluate (ofSteps [.encloseSteps (.group .capturing) [.literal ['a', 'b'] (.exactly 2)]]
      []).print = .error (.chain (.call (.build (.severalAtoms ['a', 'b'])))) := by
  have hs : Step.Succeeds [.literal ['-'] ⟨none, some 2⟩] ⟨"-\x7b0,2\x7d".toList⟩ :=
    ⟨rfl, trivial, trivial⟩
  have ht : Step.AllTaken
      [.encloseSteps (.group .capturing) [.literal ['a', 'b'] (.exactly 2)]] :=
    ⟨⟨trivial, trivial⟩, trivial⟩
  have hf : Step.FirstFailure
      [.encloseSteps (.group .capturing) [.literal ['a', 'b'] (.exactly 2)]]
      (.build (.severalAtoms ['a', 'b'])) :=
    .callback Step.succeeds_nil (.literal Step.succeeds_nil rfl)
  refine ⟨hs, ?_, ht, ?_, hf, ?_⟩
  · exact ((evaluate_ofSteps _ []).2.2.1 _ hs).1
  · exact (evaluate_ofSteps _ []).2.1 ht
  · exact ((evaluate_ofSteps _ []).2.2.2.1 _ hf).2

/-- Alternation with bounds can be built, and what it writes is a pattern; but its call is
refused. -/
theorem evaluate_ofSteps_or_ne :
    Builder.run {} [.token .or (.exactly 2)] = .ok ⟨"|\x7b2\x7d".toList⟩ ∧
    (∃ p : Pattern, Builder.done ⟨"|\x7b2\x7d".toList⟩ [] = .ok p) ∧
    Builder.callAll {} (ofSteps [.token .or (.exactly 2)] []).calls =
      .error (.noArguments (.token .or) 1) ∧
    evaluate (ofSteps [.token .or (.exactly 2)] []).print =
      .error (.chain (.call (.noArguments (.token .or) 1))) := by
  have hf : Step.FirstFailure [.token .or (.exactly 2)] (.noArguments (.token .or) 1) :=
    .token Step.succeeds_nil (by decide)
  refine ⟨rfl, ?_, hf.callAll, ?_⟩
  · exact ⟨_, Pattern.make_self ⟨"|\x7b2\x7d".toList, Flags.empty, by decide +kernel⟩⟩
  · rw [evaluate_print_ofSteps, hf.callAll]

end Chain

end FluentRegex
