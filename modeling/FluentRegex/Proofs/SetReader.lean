import FluentRegex.Proofs.SourceParts

/-!
The body of a set is read with a second text beside it. Whether a hyphen needs its backslash depends
on what has been written before it, so the reader keeps the text that a builder would hold after the
calls it has given so far. It writes that text itself and runs no call. Here the reader is a machine
that gives one call at a time, and the text that it keeps is always the one that its calls write;
what it has taken of a run of literal text comes next in the text of all calls.
-/

namespace FluentRegex.Chain

open Source Escape

/-! ### The machine -/

/-- What the reader of the body of a set does next. -/
inductive Phase where
  /-- Start on a token, or on a run of literal text. -/
  | between
  /-- Take the unit `u` into a run of literal text, after the text `run`. -/
  | reading (run : Text) (u : SourceUnit)
  /-- Give the calls of the literals that a run has come to. -/
  | writing (due : List Literal)

/-- The reader of the body of a set, with the calls that it has given, the text that it keeps for
them, and the source that it has not read yet. -/
structure SetReader where
  calls : List Call := []
  rebuilt : Text := []
  phase : Phase := .between
  rest : Source

namespace SetReader

/-- Give the call of a token with the bounds that follow it. -/
def token (r : SetReader) (k : Token) (us : Source) : SetReader where
  calls := r.calls ++ [.plain (.token k) (tokenBounds k us).1.arguments]
  rebuilt := r.rebuilt ++ k.sequence ++ (tokenBounds k us).1.suffix
  rest := (tokenBounds k us).2

/-- Take a unit into a run. Bounds or a question mark after it split it off, and the run ends there,
before a token, and at the end of the body. -/
def take (r : SetReader) (run : Text) (u : SourceUnit) : SetReader :=
  let piece := (setLiterals r.rebuilt).piece run u r.rest
  match takeRange? r.rest with
  | some (bounds, rest) =>
    { r with phase := .writing (Literal.split run piece bounds), rest := rest }
  | none =>
    match r.rest with
    | [] => { r with phase := .writing [⟨run ++ piece, .none⟩] }
    | v :: vs =>
      if v = .plain '?' then { r with phase := .writing (Literal.split run piece .none) }
      else if (Token.ofUnit? v).isSome then { r with phase := .writing [⟨run ++ piece, .none⟩] }
      else { r with phase := .reading (run ++ piece) v, rest := vs }

def write (r : SetReader) (l : Literal) (due : List Literal) : SetReader :=
  { r with
    calls := r.calls ++ [l.call], rebuilt := r.rebuilt ++ l.written, phase := .writing due }

/-- One step of the reader; none at the end of the body. -/
def step? (r : SetReader) : Option SetReader :=
  match r.phase with
  | .between =>
    match r.rest with
    | [] => none
    | u :: us =>
      match Token.ofUnit? u with
      | some k => some (r.token k us)
      | none => some { r with phase := .reading [] u, rest := us }
  | .reading run u => some (r.take run u)
  | .writing [] => some { r with phase := .between }
  | .writing (l :: due) => some (r.write l due)

/-- The reader of this body gets there in some steps. -/
inductive Reached (body : Source) : SetReader → Prop
  | start : Reached body { rest := body }
  | step {r r' : SetReader} (h : Reached body r) (hs : r.step? = some r') : Reached body r'

/-! ### The calls to come -/

/-- The calls that the reader gives from there on. -/
def remaining (r : SetReader) : List Call :=
  match r.phase with
  | .between => setCalls r.rebuilt r.rest
  | .reading run u =>
    (literalRun (setLiterals r.rebuilt) run u r.rest).1.map Literal.call ++
      setCalls (r.rebuilt ++
          (literalRun (setLiterals r.rebuilt) run u r.rest).1.flatMap Literal.written)
        (literalRun (setLiterals r.rebuilt) run u r.rest).2
  | .writing due =>
    due.map Literal.call ++ setCalls (r.rebuilt ++ due.flatMap Literal.written) r.rest

variable {r r' : SetReader} {body us : Source} {u : SourceUnit} {run : Text}

/-! ### Steps -/

/-- What a step does: it starts on a token or on a run, takes a unit into a run, leaves a run, or
gives the call of a literal. -/
theorem step?_cases (h : r.step? = some r') :
    (∃ u us k, r.phase = .between ∧ r.rest = u :: us ∧ Token.ofUnit? u = some k ∧
      r' = r.token k us) ∨
    (∃ u us, r.phase = .between ∧ r.rest = u :: us ∧ Token.ofUnit? u = none ∧
      r' = { r with phase := .reading [] u, rest := us }) ∨
    (∃ run u, r.phase = .reading run u ∧ r' = r.take run u) ∨
    (r.phase = .writing [] ∧ r' = { r with phase := .between }) ∨
    ∃ l due, r.phase = .writing (l :: due) ∧ r' = r.write l due := by
  rw [step?] at h
  cases hp : r.phase with
  | between =>
    cases hr : r.rest with
    | nil => simp [hp, hr] at h
    | cons u us =>
      cases hk : Token.ofUnit? u with
      | some k => exact .inl ⟨u, us, k, rfl, rfl, hk, by simpa [hp, hr, hk] using h.symm⟩
      | none => exact .inr (.inl ⟨u, us, rfl, rfl, hk, by simpa [hp, hr, hk] using h.symm⟩)
  | reading run u =>
    exact .inr (.inr (.inl ⟨run, u, rfl, by simpa [hp] using h.symm⟩))
  | writing due =>
    cases due with
    | nil => exact .inr (.inr (.inr (.inl ⟨rfl, by simpa [hp] using h.symm⟩)))
    | cons l due => exact .inr (.inr (.inr (.inr ⟨l, due, rfl, by simpa [hp] using h.symm⟩)))

theorem step?_eq_none (h : r.step? = none) : r.phase = .between ∧ r.rest = [] := by
  rw [step?] at h
  cases hp : r.phase with
  | between =>
    cases hr : r.rest with
    | nil => exact ⟨rfl, rfl⟩
    | cons u us => cases hk : Token.ofUnit? u <;> simp [hp, hr, hk] at h
  | reading run u => simp [hp] at h
  | writing due => cases due <;> simp [hp] at h

/-- What taking a unit into a run does: the run has come to its end, and its literals are due, or it
goes on with the next unit. -/
theorem take_cases (r : SetReader) (run : Text) (u : SourceUnit) :
    (∃ due rest, literalRun (setLiterals r.rebuilt) run u r.rest = (due, rest) ∧
      r.take run u = { r with phase := .writing due, rest := rest }) ∨
    ∃ v vs run', r.rest = v :: vs ∧ run' = run ++ (setLiterals r.rebuilt).piece run u r.rest ∧
      literalRun (setLiterals r.rebuilt) run u r.rest =
        literalRun (setLiterals r.rebuilt) run' v vs ∧
      r.take run u = { r with phase := .reading run' v, rest := vs } := by
  obtain ⟨calls, rebuilt, phase, rest⟩ := r
  rw [literalRun.eq_def, take]
  cases hb : takeRange? rest with
  | some b => exact .inl ⟨_, _, rfl, rfl⟩
  | none =>
    cases rest with
    | nil => exact .inl ⟨_, _, rfl, rfl⟩
    | cons v vs =>
      by_cases hv : v = .plain '?'
      · exact .inl ⟨_, _, if_pos hv, if_pos hv⟩
      · by_cases hk : (Token.ofUnit? v).isSome = true
        · simp only [if_neg hv, if_pos hk]
          exact .inl ⟨_, _, if_pos hk, rfl⟩
        · simp only [if_neg hv, if_neg hk]
          exact .inr ⟨v, vs, _, rfl, rfl, if_neg hk, rfl⟩

/-! ### The calls of the body -/

theorem remaining_token {k : Token} (hp : r.phase = .between) (hr : r.rest = u :: us)
    (hk : Token.ofUnit? u = some k) :
    (r.token k us).calls ++ (r.token k us).remaining = r.calls ++ r.remaining := by
  simp [remaining, hp, hr, token, setCalls, setStep_token hk]

theorem remaining_write {l : Literal} {due : List Literal} (hp : r.phase = .writing (l :: due)) :
    (r.write l due).calls ++ (r.write l due).remaining = r.calls ++ r.remaining := by
  simp [remaining, hp, write]

theorem remaining_take (hp : r.phase = .reading run u) :
    (r.take run u).calls ++ (r.take run u).remaining = r.calls ++ r.remaining := by
  rcases r.take_cases run u with ⟨due, rest, hl, ht⟩ | ⟨v, vs, run', -, -, hl, ht⟩
  · simp [remaining, ht, hp, hl]
  · simp [remaining, ht, hp, hl]

/-- A step gives the first of the calls to come, or none. -/
theorem remaining_step (h : r.step? = some r') :
    r'.calls ++ r'.remaining = r.calls ++ r.remaining := by
  rcases step?_cases h with ⟨u, us, k, hp, hr, hk, rfl⟩ | ⟨u, us, hp, hr, hk, rfl⟩ |
    ⟨run, u, hp, rfl⟩ | ⟨hp, rfl⟩ | ⟨l, due, hp, rfl⟩
  · exact remaining_token hp hr hk
  · simp [remaining, hp, hr, setCalls, setStep_literals hk]
  · exact remaining_take hp
  · simp [remaining, hp]
  · exact remaining_write hp

/-- The calls that the reader has given and those to come are the calls for the body. -/
theorem Reached.calls_append (h : Reached body r) :
    r.calls ++ r.remaining = setCalls [] body := by
  induction h with
  | start => rfl
  | step _ hs ih => rw [remaining_step hs, ih]

/-! ### The text that the reader keeps -/

/-- What the reader counts on: the units that are not read come back from their text, the text of a
run ends with a whole unit, and the literals that are due can be written. -/
def Ready (r : SetReader) : Prop :=
  match r.phase with
  | .between => Proper r.rest
  | .reading run u => Paired run ∧ Proper (u :: r.rest)
  | .writing due => (∀ l ∈ due, l.Valid) ∧ Proper r.rest

/-- The text that the reader keeps is the one that its calls write. -/
structure Exact (r : SetReader) : Prop where
  writes : Writes r.calls r.rebuilt
  ready : r.Ready

theorem exact_start (t : Text) : Exact { rest := ofText t } where
  writes := writes_nil
  ready := proper_ofText t

theorem Exact.token (h : r.Exact) (hp : r.phase = .between) (hr : r.rest = u :: us) (k : Token) :
    (r.token k us).Exact := by
  obtain ⟨hw, hready⟩ := h
  rw [Ready, hp, hr] at hready
  constructor
  · have := hw.append (writes_tokenBounds k us)
    rwa [← List.append_assoc] at this
  · exact (proper_cons.1 hready).2.of_suffix (suffix_tokenBounds k us)

theorem Exact.write {l : Literal} {due : List Literal} (h : r.Exact)
    (hp : r.phase = .writing (l :: due)) : (r.write l due).Exact := by
  obtain ⟨hw, hready⟩ := h
  rw [Ready, hp] at hready
  obtain ⟨hv, hrest⟩ := hready
  exact ⟨hw.append (hv l List.mem_cons_self).writes,
    fun m hm => hv m (List.mem_cons_of_mem l hm), hrest⟩

/-- The literals of a run can be written, and a run that goes on holds whole units. -/
theorem Exact.take (h : r.Exact) (hp : r.phase = .reading run u) : (r.take run u).Exact := by
  obtain ⟨hw, hready⟩ := h
  rw [Ready, hp] at hready
  obtain ⟨hrun, hproper⟩ := hready
  obtain ⟨hu, hrest⟩ := proper_cons.1 hproper
  rcases r.take_cases run u with ⟨due, rest, hl, ht⟩ | ⟨v, vs, run', hr, rfl, -, ht⟩
  · have hv := valid_setLiterals r.rebuilt run u r.rest
    have hs := suffix_literalRun (setLiterals r.rebuilt) run u r.rest
    rw [hl] at hv hs
    rw [ht]
    exact ⟨hw, hv, hrest.of_suffix hs⟩
  · -- Another unit follows, so this one is no backslash at the end of the body.
    rw [hr] at hu hrest
    have hpiece : Paired ((setLiterals r.rebuilt).piece run u r.rest) :=
      paired_setLiterals r.rebuilt run u r.rest fun e => List.cons_ne_nil v vs (hu e)
    rw [ht]
    exact ⟨hw, hrun.append hpiece, hrest⟩

/-- A step keeps the kept text exact. -/
theorem Exact.step (h : r.Exact) (hs : r.step? = some r') : r'.Exact := by
  rcases step?_cases hs with ⟨u, us, k, hp, hr, hk, rfl⟩ | ⟨u, us, hp, hr, hk, rfl⟩ |
    ⟨run, u, hp, rfl⟩ | ⟨hp, rfl⟩ | ⟨l, due, hp, rfl⟩
  · exact h.token hp hr k
  · obtain ⟨hw, hready⟩ := h
    rw [Ready, hp, hr] at hready
    exact ⟨hw, by decide, hready⟩
  · exact h.take hp
  · obtain ⟨hw, hready⟩ := h
    rw [Ready, hp] at hready
    exact ⟨hw, hready.2⟩
  · exact h.write hp

theorem Reached.exact {t : Text} (h : Reached (ofText t) r) : r.Exact := by
  induction h with
  | start => exact exact_start t
  | step _ hs ih => exact ih.step hs

/-! ### The text of all calls -/

/-- The calls to come can be run, and in a run they write what has been read of it first. -/
theorem Exact.writes_remaining (h : r.Exact) :
    ∃ t, Writes r.remaining t ∧ ∀ run u, r.phase = .reading run u → literals run <+: t := by
  have hready := h.ready
  rw [Ready] at hready
  rw [remaining]
  cases hp : r.phase with
  | between =>
    rw [hp] at hready
    exact ⟨_, writes_setCalls _ hready, nofun⟩
  | reading run u =>
    rw [hp] at hready
    obtain ⟨hrun, hproper⟩ := hready
    have hs := suffix_literalRun (setLiterals r.rebuilt) run u r.rest
    have hrest := (proper_cons.1 hproper).2.of_suffix hs
    have hv := valid_setLiterals r.rebuilt run u r.rest
    have hprefix := prefix_literalRun (paired_setLiterals r.rebuilt) hrun hproper
    refine ⟨_, (writes_literals hv).append (writes_setCalls _ hrest), ?_⟩
    rintro _ _ ⟨⟩
    exact hprefix.trans (List.prefix_append _ _)
  | writing due =>
    rw [hp] at hready
    exact ⟨_, (writes_literals hready.1).append (writes_setCalls _ hready.2), nofun⟩

/-! ### The end of the body -/

/-- A bound on the steps that the reader still takes. A unit of the source takes at most five: one
to start a run with it, one to take it, two for the literals, and one to leave the run. -/
def stepsLeft (r : SetReader) : Nat :=
  match r.phase with
  | .between => 5 * r.rest.length
  | .reading _ _ => 5 * r.rest.length + 4
  | .writing due => 5 * r.rest.length + due.length + 1

theorem stepsLeft_take_lt (hp : r.phase = .reading run u) :
    (r.take run u).stepsLeft < r.stepsLeft := by
  rcases r.take_cases run u with ⟨due, rest, hl, ht⟩ | ⟨v, vs, run', hr, -, -, ht⟩
  · have hrest : rest.length ≤ r.rest.length := by
      have := length_literalRun_le (setLiterals r.rebuilt) run u r.rest
      rwa [hl] at this
    have hdue : due.length ≤ 2 := by
      have := length_literals_literalRun_le (setLiterals r.rebuilt) run u r.rest
      rwa [hl] at this
    simp only [ht, stepsLeft, hp]
    omega
  · simp only [ht, stepsLeft, hp, hr, List.length_cons]
    omega

theorem stepsLeft_lt (h : r.step? = some r') : r'.stepsLeft < r.stepsLeft := by
  rcases step?_cases h with ⟨u, us, k, hp, hr, hk, rfl⟩ | ⟨u, us, hp, hr, hk, rfl⟩ |
    ⟨run, u, hp, rfl⟩ | ⟨hp, rfl⟩ | ⟨l, due, hp, rfl⟩
  · have := (suffix_tokenBounds k us).length_le
    simp only [stepsLeft, token, hp, hr, List.length_cons]
    omega
  · simp only [stepsLeft, hp, hr, List.length_cons]
    omega
  · exact stepsLeft_take_lt hp
  · simp [stepsLeft, hp]
  · simp [stepsLeft, write, hp]

theorem Reached.exists_end (h : Reached body r) : ∃ r', Reached body r' ∧ r'.step? = none := by
  induction hn : r.stepsLeft using Nat.strongRecOn generalizing r with
  | ind n ih =>
    cases hs : r.step? with
    | none => exact ⟨r, h, hs⟩
    | some r' => exact ih _ (hn ▸ stepsLeft_lt hs) (h.step hs) rfl

theorem remaining_of_step?_eq_none (h : r.step? = none) : r.remaining = [] := by
  obtain ⟨hp, hr⟩ := step?_eq_none h
  rw [remaining, hp, hr, setCalls]

/-- The reader of the body of a set comes to its end with the calls for the body. Wherever it gets,
the calls that it has given and those to come are these calls, and the text that it keeps is the one
that a new builder holds after the calls given. In a run of literal text, before a hyphen as before
any other unit, the builder of all calls holds this text and after it what has been read of the
run. -/
theorem callAll_of_reached (t : Text) :
    (∃ r : SetReader, Reached (ofText t) r ∧ r.step? = none) ∧
    ∀ r : SetReader, Reached (ofText t) r →
      setCalls [] (ofText t) = r.calls ++ r.remaining ∧
      (r.step? = none → r.calls = setCalls [] (ofText t)) ∧
      Builder.callAll {} r.calls = .ok ⟨r.rebuilt⟩ ∧
      ∃ b : Builder, Builder.callAll {} (setCalls [] (ofText t)) = .ok b ∧ r.rebuilt <+: b.text ∧
        ∀ run u, r.phase = .reading run u → r.rebuilt ++ literals run <+: b.text := by
  refine ⟨Reached.start.exists_end, fun r h => ?_⟩
  have hcalls := h.calls_append
  obtain ⟨s, hs, hrun⟩ := h.exact.writes_remaining
  refine ⟨hcalls.symm, fun hn => ?_, h.exact.writes {}, ⟨r.rebuilt ++ s⟩, ?_,
    List.prefix_append _ _, fun run u hp => ?_⟩
  · rw [← hcalls, remaining_of_step?_eq_none hn, List.append_nil]
  · rw [← hcalls]
    exact h.exact.writes.append hs {}
  · exact (List.prefix_append_right_inj _).2 (hrun run u hp)

/-- Before the hyphen of `\dz\-9` the reader keeps `\d`, and has read `z` of a run. -/
theorem callAll_of_reached_hyphen :
    Reached (ofText "\\dz\\-9".toList)
      ⟨[.plain (.token .digit) []], "\\d".toList, .reading ['z'] (.escaped '-'), [.plain '9']⟩ ∧
    Builder.callAll {} [.plain (.token .digit) []] = .ok ⟨"\\d".toList⟩ ∧
    ∃ b : Builder, Builder.callAll {} (setCalls [] (ofText "\\dz\\-9".toList)) = .ok b ∧
      "\\dz".toList <+: b.text := by
  have h : Reached (ofText "\\dz\\-9".toList)
      ⟨[.plain (.token .digit) []], "\\d".toList, .reading ['z'] (.escaped '-'), [.plain '9']⟩ :=
    ((Reached.start.step rfl).step rfl).step rfl
  obtain ⟨-, hr⟩ := callAll_of_reached "\\dz\\-9".toList
  obtain ⟨-, -, hc, b, hb, -, hrun⟩ := hr _ h
  exact ⟨h, hc, b, hb, hrun _ _ rfl⟩

end SetReader

end FluentRegex.Chain
