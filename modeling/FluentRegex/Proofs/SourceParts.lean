import FluentRegex.Proofs.Evaluation

/-!
The parts of a source that lists of calls are read off. Reading goes on with an end of what it has
not read yet, and the calls of a callback come from what lies between the delimiters of its group or
set. So whatever holds of the calls for each part of a source, holds of every list of calls in its
chain, at any depth.
-/

namespace FluentRegex.Chain

open Source Call

/-! ### What is left after a step -/

theorem suffix_inner {us inner : Source} {g : Group} (hg : Group.takeOpener? us = some (g, inner)) :
    inner <:+ us :=
  ⟨_, (Group.eq_of_takeOpener? hg).symm⟩

theorem suffix_setOpening (us : Source) : (setOpening us).2 <:+ .plain '[' :: us :=
  ⟨_, (eq_of_setOpening us).symm⟩

theorem suffix_afterGroup {us inner : Source} {g : Group}
    (hg : Group.takeOpener? us = some (g, inner)) : (takeRange (takeGroup inner).2).2 <:+ us :=
  ((suffix_takeRange _).trans (cutAt_takeGroup inner).isSuffix).trans (suffix_inner hg)

theorem suffix_afterSet (us : Source) :
    (takeRange (takeSet (setOpening us).2).2).2 <:+ .plain '[' :: us :=
  ((suffix_takeRange _).trans (cutAt_takeSet _).isSuffix).trans (suffix_setOpening us)

variable {u : SourceUnit}

theorem setStep_token {k : Token} (hk : Token.ofUnit? u = some k) (written : Text) (us : Source) :
    setStep written u us =
      ([.plain (.token k) (tokenBounds k us).1.arguments],
        written ++ k.sequence ++ (tokenBounds k us).1.suffix, (tokenBounds k us).2) := by
  rw [setStep, hk]

theorem setStep_literals (hk : Token.ofUnit? u = none) (written : Text) (us : Source) :
    setStep written u us =
      ((literalRun (setLiterals written) [] u us).1.map Literal.call,
        written ++ (literalRun (setLiterals written) [] u us).1.flatMap Literal.written,
        (literalRun (setLiterals written) [] u us).2) := by
  rw [setStep, hk]

/-! ### Callbacks -/

theorem body?_of_mem_setCalls {written : Text} {us : Source} {c : Call}
    (h : c ∈ setCalls written us) : c.body? = none := by
  fun_induction setCalls written us with
  | case1 => cases h
  | case2 written u us _ ih =>
    rcases List.mem_append.1 h with h | h
    · cases hk : Token.ofUnit? u with
      | some k =>
        rw [setStep_token hk] at h
        rw [List.mem_singleton.1 h]
        rfl
      | none =>
        rw [setStep_literals hk] at h
        obtain ⟨l, -, rfl⟩ := List.mem_map.1 h
        rfl
    · exact ih h

/-- A callback in the calls for a source has the calls for a part of the source, or those for the
body of a set in it. -/
theorem body?_of_mem_callsOfSource {us : Source} {c : Call} {body : List Call}
    (h : c ∈ callsOfSource us) (hb : c.body? = some body) :
    ∃ vs, vs <:+: us ∧ (body = callsOfSource vs ∨ body = setCalls [] vs) := by
  -- Each case reads on with an end of the source.
  have later {us vs : Source} (hs : vs <:+ us)
      (ih : ∃ ws, ws <:+: vs ∧ (body = callsOfSource ws ∨ body = setCalls [] ws)) :
      ∃ ws, ws <:+: us ∧ (body = callsOfSource ws ∨ body = setCalls [] ws) := by
    obtain ⟨ws, hw, e⟩ := ih
    exact ⟨ws, hw.trans hs.isInfix, e⟩
  have hrange {q : Quantifier} (h : c ∈ rangeCalls q) : False := by
    rw [rangeCalls] at h
    split at h
    · cases h
    · rw [List.mem_singleton.1 h] at hb
      cases hb
  fun_induction callsOfSource us with
  | case1 => cases h
  | case2 u us g inner hg rest ihb ihr =>
    rcases List.mem_cons.1 h with rfl | h
    · cases hb
      have hi := (cutAt_takeGroup inner).isInfix
      exact ⟨_, hi.trans (suffix_inner hg).isInfix, .inl rfl⟩
    · rcases List.mem_append.1 h with h | h
      · exact (hrange h).elim
      · exact later (suffix_afterGroup hg) (ihr h)
  | case3 us inner rest hg ih =>
    rcases List.mem_cons.1 h with rfl | h
    · rw [setCall] at hb
      split at hb
      · cases hb
        have hi := (cutAt_takeSet inner).isInfix
        exact ⟨_, hi.trans (suffix_setOpening us).isInfix, .inr rfl⟩
      · cases hb
    · rcases List.mem_append.1 h with h | h
      · exact (hrange h).elim
      · exact later (suffix_afterSet us) (ih h)
  | case4 u us hg hs k hk ih =>
    rcases List.mem_cons.1 h with rfl | h
    · cases hb
    · exact later ((suffix_tokenBounds k us).trans (List.suffix_cons u us)) (ih h)
  | case5 u us hg hs hk ih =>
    rcases List.mem_append.1 h with h | h
    · obtain ⟨l, -, rfl⟩ := List.mem_map.1 h
      cases hb
    · exact later ((suffix_literalRun _ [] u us).trans (List.suffix_cons u us)) (ih h)

/-- Every list of calls in the tree of a source is read off a part of the source. -/
theorem exists_of_within {body cs : List Call} (hw : Within body cs) {us : Source}
    (hcs : cs = callsOfSource us ∨ cs = setCalls [] us) :
    ∃ vs, vs <:+: us ∧ (body = callsOfSource vs ∨ body = setCalls [] vs) := by
  induction hw generalizing us with
  | here h =>
    rcases hcs with rfl | rfl
    · exact body?_of_mem_callsOfSource h rfl
    · cases body?_of_mem_setCalls h
  | inside h _ ih =>
    rcases hcs with rfl | rfl
    · obtain ⟨vs, hv, e⟩ := body?_of_mem_callsOfSource h rfl
      obtain ⟨ws, hw, e'⟩ := ih e
      exact ⟨ws, hw.trans hv, e'⟩
    · cases body?_of_mem_setCalls h

end FluentRegex.Chain
