import FluentRegex.Proofs.RoundTrip

/-!
What the chain of a source can come to. The layout of a chain does not matter to what is read from
it. The chain of any source runs, in every callback of it as well, so evaluating its text ends in a
pattern of the text it builds, or in what is wrong with the flags or with that text.
-/

namespace FluentRegex

namespace Call

/-- The calls are the body of a callback in the list, at any depth. -/
inductive Within (body : List Call) : List Call → Prop
  | here {o : Operation} {args : List Argument} {cs : List Call} (h : .callback o args body ∈ cs) :
      Within body cs
  | inside {o : Operation} {args : List Argument} {inner cs : List Call}
      (h : .callback o args inner ∈ cs) (hw : Within body inner) : Within body cs

end Call

namespace Builder

/-- Calls that run as a list run one by one, each on the builder that the calls before it leave. -/
theorem call_of_callAll {b b' : Builder} {c : Call} {cs : List Call} (h : b.callAll cs = .ok b')
    (hc : c ∈ cs) : ∃ d d' : Builder, d.call c = .ok d' := by
  induction cs generalizing b with
  | nil => cases hc
  | cons a cs ih =>
    rw [callAll_cons] at h
    cases ha : b.call a with
    | error err =>
      rw [ha] at h
      cases h
    | ok d =>
      rw [ha] at h
      rcases List.mem_cons.1 hc with rfl | hc
      · exact ⟨b, d, ha⟩
      · exact ih h hc

theorem callAll_of_callback {b b' : Builder} {o : Operation} {args : List Argument}
    {body : List Call} (h : b.call (.callback o args body) = .ok b') :
    ∃ inner, callAll {} body = .ok inner := by
  cases o with
  | enclose e =>
    rw [call] at h
    cases hb : callAll {} body with
    | ok inner => exact ⟨inner, rfl⟩
    | error err =>
      rw [hb] at h
      cases args <;> cases h
  | _ => rw [call] at h <;> cases h

/-- Calls run only if every callback in them does, at any depth. -/
theorem callAll_of_within {b b' : Builder} {body cs : List Call} (h : b.callAll cs = .ok b')
    (hw : Call.Within body cs) : ∃ inner, callAll {} body = .ok inner := by
  induction hw generalizing b b' with
  | here hc =>
    obtain ⟨_, _, hd⟩ := call_of_callAll h hc
    exact callAll_of_callback hd
  | inside hc _ ih =>
    obtain ⟨_, _, hd⟩ := call_of_callAll h hc
    obtain ⟨_, hi⟩ := callAll_of_callback hd
    exact ih hi

end Builder

namespace Pattern

/-- Making a pattern succeeds, or fails in the flags, or fails in the source. -/
theorem make_cases (source flags : Text) :
    (∃ p : Pattern, make source flags = .ok p ∧ p.source = source ∧
      Flags.parse flags = .ok p.flags) ∨
    (∃ e, make source flags = .error (.flags e) ∧ Flags.parse flags = .error e) ∨
    ∃ fs : Flags, make source flags = .error .rejected ∧ Flags.parse flags = .ok fs ∧
      accepts (fs.compileSource source) = false := by
  rw [make]
  cases hf : Flags.parse flags with
  | error e => exact .inr (.inl ⟨e, rfl, rfl⟩)
  | ok fs =>
    by_cases ha : accepts (fs.compileSource source) = true
    · exact .inl ⟨⟨source, fs, ha⟩, by simp [ha], rfl, rfl⟩
    · exact .inr (.inr ⟨fs, by simp [ha], rfl, Bool.eq_false_iff.2 ha⟩)

end Pattern

namespace Chain

open Source

/-- Reading a chain from its laid out text succeeds and gives what reading it from a single line
gives. -/
theorem read_pretty (c : Chain) : read c.pretty = .ok c.shown ∧ read c.print = .ok c.shown :=
  ⟨read_of_lexes (lexes_pretty c), read_of_lexes (lexes_print c)⟩

/-- The chain of any source runs, and so does every callback in it. Both of its texts are evaluated
to the pattern of the text that it builds, unless the flags are wrong or that text is not
accepted. -/
theorem evaluate_ofSource (source flags : Text) :
    ∃ t : Text, Builder.callAll {} (ofSource source flags).calls = .ok ⟨t⟩ ∧
      (∀ body, Call.Within body (ofSource source flags).calls →
        ∃ b, Builder.callAll {} body = .ok b) ∧
      evaluate (ofSource source flags).pretty = evaluate (ofSource source flags).print ∧
      ((∃ p : Pattern, evaluate (ofSource source flags).print = .ok p ∧ p.source = t ∧
          Flags.parse flags = .ok p.flags) ∨
        (∃ e, evaluate (ofSource source flags).print = .error (.chain (.pattern (.flags e))) ∧
          Flags.parse flags = .error e) ∨
        ∃ fs : Flags,
          evaluate (ofSource source flags).print = .error (.chain (.pattern .rejected)) ∧
            Flags.parse flags = .ok fs ∧ Pattern.accepts (fs.compileSource t) = false) := by
  have hr := callAll_ofSource source flags
  have hp := evaluate_of_lexes (lexes_print (ofSource source flags))
  refine ⟨_, hr, fun _ => Builder.callAll_of_within hr, ?_, ?_⟩
  · rw [evaluate_of_lexes (lexes_pretty _), hp]
  · rw [hp]
    rcases Pattern.make_cases (text (rebuilt (ofText source))) flags with
      ⟨p, hm, h⟩ | ⟨e, hm, h⟩ | ⟨fs, hm, h⟩
    · exact .inl ⟨p, by rw [hm]; rfl, h⟩
    · exact .inr (.inl ⟨e, by rw [hm]; rfl, h⟩)
    · exact .inr (.inr ⟨fs, by rw [hm]; rfl, h⟩)

/-- The callback of a group that is not closed, and whose range is open, runs by itself. -/
theorem evaluate_ofSource_unclosed :
    Call.Within [.plain .literal [.text "a\x7b2,\x7d".toList]]
      (ofSource "(a\x7b2,\x7d".toList []).calls ∧
    ∃ b, Builder.callAll {} [.plain .literal [.text "a\x7b2,\x7d".toList]] = .ok b := by
  have hw : Call.Within [.plain .literal [.text "a\x7b2,\x7d".toList]]
      (ofSource "(a\x7b2,\x7d".toList []).calls :=
    @Call.Within.here _ (.enclose (.group .capturing)) [] _ (by decide +kernel)
  obtain ⟨_, -, h, -⟩ := evaluate_ofSource "(a\x7b2,\x7d".toList []
  exact ⟨hw, h _ hw⟩

end Chain

end FluentRegex
