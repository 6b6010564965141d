import FluentRegex.Chain.OfSource
import FluentRegex.Chain.Run
import FluentRegex.Proofs.Bounds

/-!
What calls write. Calls that run on every builder add the same text to each, and the text of a list
of calls is put together from the texts of its calls. Literal text that is read off a source in runs
is written unit by unit, each with its own bounds.
-/

namespace FluentRegex

/-- The calls run on any builder and add this text to it. -/
def Writes (cs : List Call) (t : Text) : Prop :=
  ∀ b : Builder, b.callAll cs = .ok (b.append t)

variable {cs ds : List Call} {s t : Text}

theorem Builder.callAll_append (b : Builder) (cs ds : List Call) :
    b.callAll (cs ++ ds) =
      match b.callAll cs with
      | .ok b' => b'.callAll ds
      | .error err => .error err := by
  induction cs generalizing b with
  | nil => simp
  | cons c cs ih =>
    rw [List.cons_append, callAll_cons, callAll_cons]
    cases b.call c with
    | ok b' => exact ih b'
    | error err => rfl

theorem Builder.append_append (b : Builder) (s t : Text) :
    (b.append s).append t = b.append (s ++ t) := by
  simp [Builder.append]

theorem Builder.append_nil (b : Builder) : b.append [] = b := by
  simp [Builder.append]

theorem writes_nil : Writes [] [] := by
  intro b
  rw [Builder.callAll_nil, b.append_nil]

theorem Writes.append (hs : Writes cs s) (ht : Writes ds t) : Writes (cs ++ ds) (s ++ t) := by
  intro b
  rw [b.callAll_append, hs b]
  exact (ht _).trans (by rw [b.append_append])

theorem Writes.cons {c : Call} (hc : Writes [c] s) (ht : Writes ds t) :
    Writes (c :: ds) (s ++ t) :=
  hc.append ht

theorem writes_singleton {c : Call} (h : ∀ b : Builder, b.call c = .ok (b.append t)) :
    Writes [c] t := by
  intro b
  rw [Builder.callAll_cons, h]
  exact Builder.callAll_nil _

/-! ### Single calls -/

variable {q : Quantifier}

/-- The token is given no bounds, or its operation takes some. -/
def Token.Takes (k : Token) (q : Quantifier) : Prop :=
  q = .none ∨ k.quantifiable = true

instance (k : Token) (q : Quantifier) : Decidable (k.Takes q) :=
  inferInstanceAs (Decidable (_ ∨ _))

theorem Call.tokenBounds_of_takes {k : Token} (hk : k.Takes q) :
    tokenBounds k q.arguments = (Quantifier.ofArguments q.arguments).mapError .bounds := by
  rw [tokenBounds, if_neg]
  rcases hk with rfl | hk
  · simp
  · simp [hk]

theorem writes_token {k : Token} (hk : k.Takes q)
    (hq : Quantifier.ofArguments q.arguments = .ok q) :
    Writes [.plain (.token k) q.arguments] (k.sequence ++ q.suffix) := by
  refine writes_singleton fun b => ?_
  simp only [Builder.call, Builder.callPlain, Call.tokenBounds_of_takes hk, hq]
  rfl

theorem writes_rangeCalls (hq : Quantifier.ofArguments q.arguments = .ok q) :
    Writes (Chain.rangeCalls q) q.suffix := by
  rw [Chain.rangeCalls]
  split
  · next h =>
    rw [Quantifier.isNone_iff.1 h]
    exact writes_nil
  · refine writes_singleton fun b => ?_
    simp only [Builder.call, Builder.callPlain, Call.textBounds, hq]
    rfl

theorem writes_callback (e : Enclosure) (h : Writes cs t) :
    Writes [.callback (.enclose e) [] cs] (e.wrapNested t) := by
  refine writes_singleton fun b => ?_
  rw [Builder.call, Builder.callEnclosure_callback, h {}]
  simp [Except.map, Builder.append]

theorem writes_text (e : Enclosure) (t : Text) :
    Writes [.plain (.enclose e) [.text t]] (e.wrapText t) :=
  writes_singleton fun _ => rfl

namespace Chain

open Source Escape

theorem writes_tokenBounds (k : Token) (us : Source) :
    Writes [.plain (.token k) (tokenBounds k us).1.arguments]
      (k.sequence ++ (tokenBounds k us).1.suffix) := by
  rw [tokenBounds]
  split
  · exact writes_token (.inr ‹_›) (ofArguments_takeRange us)
  · exact writes_token (.inl rfl) rfl

theorem suffix_tokenBounds (k : Token) (us : Source) : (tokenBounds k us).2 <:+ us := by
  rw [tokenBounds]
  split
  · exact suffix_takeRange us
  · exact List.suffix_refl us

/-! ### Literal text -/

theorem ofText_literalPiece (u : SourceUnit) :
    ∃ v, ofText (literalPiece u) = [v] ∧ literalUnit v = literalUnit u ∧
      (v = .plain '\\' → u = .plain '\\') := by
  cases u with
  | plain c => exact ⟨.plain c, ofText_singleton c, rfl, id⟩
  | escaped c =>
    rw [literalPiece]
    split
    · next hc =>
      refine ⟨.plain c, ofText_singleton c, by simp [literalUnit, hc], ?_⟩
      rintro ⟨rfl⟩
      exact absurd hc (by decide)
    · exact ⟨.escaped c, rfl, rfl, id⟩

/-- The piece that is read off a unit of literal text is written as the unit is. -/
theorem literals_literalPiece (u : SourceUnit) :
    literals (literalPiece u) = (literalUnit u).text := by
  obtain ⟨v, hv, e, -⟩ := ofText_literalPiece u
  rw [literals, hv, List.map_singleton, e]
  simp

theorem atomCount_literalPiece (u : SourceUnit) : atomCount (literalPiece u) = 1 := by
  obtain ⟨v, hv, -⟩ := ofText_literalPiece u
  rw [atomCount, hv]
  rfl

theorem paired_literalPiece {u : SourceUnit} (h : u ≠ .plain '\\') : Paired (literalPiece u) := by
  obtain ⟨v, hv, -, hb⟩ := ofText_literalPiece u
  rw [paired_iff_closed, hv]
  simpa using fun e => h (hb e)

/-- The bounds of the literal are given back by its arguments, and bind to a single atom. -/
def Literal.Valid (l : Literal) : Prop :=
  Quantifier.ofArguments l.bounds.arguments = .ok l.bounds ∧
    (l.bounds = .none ∨ atomCount l.text ≤ 1)

theorem Literal.Valid.writes {l : Literal} (h : l.Valid) : Writes [l.call] l.written := by
  obtain ⟨hq, h⟩ := h
  refine writes_singleton fun b => ?_
  have hl : b.literal l.text l.bounds = .ok (b.append l.written) := by
    rw [Builder.literal, if_neg]
    · rfl
    · rcases h with h | h
      · simp [h, Quantifier.isNone, Quantifier.none]
      · simp; omega
  simp only [Literal.call, Builder.call, Builder.callPlain, Call.textBounds, hq]
  exact congrArg (Except.mapError CallError.build) hl

theorem writes_literals {ls : List Literal} (h : ∀ l ∈ ls, l.Valid) :
    Writes (ls.map Literal.call) (ls.flatMap Literal.written) := by
  induction ls with
  | nil => exact writes_nil
  | cons l ls ih =>
    exact (h l (by simp)).writes.cons (ih fun m hm => h m (by simp [hm]))

theorem valid_of_none (t : Text) : Literal.Valid ⟨t, .none⟩ :=
  ⟨rfl, .inl rfl⟩

theorem valid_split {run last : Text} (hq : Quantifier.ofArguments q.arguments = .ok q)
    (hl : atomCount last ≤ 1) : ∀ l ∈ Literal.split run last q, l.Valid := by
  have hlast : Literal.Valid ⟨last, q⟩ := ⟨hq, .inr hl⟩
  intro l hm
  rw [Literal.split] at hm
  split at hm
  · rw [List.mem_singleton.1 hm]
    exact hlast
  · rcases List.mem_cons.1 hm with rfl | hm
    · exact valid_of_none run
    · rw [List.mem_singleton.1 hm]
      exact hlast

theorem suffix_literalRun (rule : LiteralRule) (run : Text) (u : SourceUnit) (us : Source) :
    (literalRun rule run u us).2 <:+ us := by
  fun_induction literalRun rule run u us with
  | case1 us run u _ bounds rest h =>
    have := suffix_takeRange us
    rwa [takeRange, h] at this
  | case2 => exact List.suffix_refl _
  | case3 => exact List.suffix_refl _
  | case4 => exact List.suffix_refl _
  | case5 run u v vs _ _ _ _ ih => exact ih.trans (List.suffix_cons _ _)

/-- Every literal of a run can be written, as its last piece is one unit. -/
theorem valid_literalRun {rule : LiteralRule}
    (hp : ∀ run u us, atomCount (rule.piece run u us) ≤ 1) (run : Text) (u : SourceUnit)
    (us : Source) : ∀ l ∈ (literalRun rule run u us).1, l.Valid := by
  fun_induction literalRun rule run u us with
  | case1 us run u piece bounds rest h =>
    have hq := ofArguments_takeRange us
    rw [takeRange, h] at hq
    exact valid_split hq (hp run u us)
  | case2 run u piece h => simp [valid_of_none]
  | case3 run u vs piece h => exact valid_split rfl (hp run u _)
  | case4 run u v vs hv he piece h => simp [valid_of_none]
  | case5 run u v vs hv he piece h ih => exact ih

theorem length_literals_literalRun_le (rule : LiteralRule) (run : Text) (u : SourceUnit)
    (us : Source) : (literalRun rule run u us).1.length ≤ 2 := by
  have hsplit : ∀ (run last : Text) (q : Quantifier), (Literal.split run last q).length ≤ 2 := by
    intro run last q
    rw [Literal.split]
    split <;> simp
  fun_induction literalRun rule run u us with
  | case1 => exact hsplit _ _ _
  | case2 => simp
  | case3 => exact hsplit _ _ _
  | case4 => simp
  | case5 run u v vs _ _ _ _ ih => exact ih

theorem flatMap_written_split (run last : Text) (q : Quantifier) :
    (Literal.split run last q).flatMap Literal.written =
      literals run ++ (literals last ++ q.suffix) := by
  rw [Literal.split]
  split
  · next h => simp [List.isEmpty_iff.1 h, Literal.written]
  · simp [Literal.written]

/-- The literals of a run write first what has been read of it before. -/
theorem prefix_literalRun {rule : LiteralRule}
    (hpiece : ∀ run u us, u ≠ .plain '\\' → Paired (rule.piece run u us))
    {run : Text} {u : SourceUnit} {us : Source} (hrun : Paired run) (h : Proper (u :: us)) :
    literals run <+: (literalRun rule run u us).1.flatMap Literal.written := by
  fun_induction literalRun rule run u us with
  | case1 us run u piece bounds rest hb =>
    rw [flatMap_written_split]
    exact List.prefix_append _ _
  | case2 run u piece hb => simp [Literal.written, literals_append hrun]
  | case3 run u vs piece hb =>
    rw [flatMap_written_split]
    exact List.prefix_append _ _
  | case4 run u v vs hv he piece hb => simp [Literal.written, literals_append hrun]
  | case5 run u v vs hv he piece hb ih =>
    obtain ⟨hu, hvs⟩ := proper_cons.1 h
    have hp : Paired piece := hpiece run u (v :: vs) fun e => List.cons_ne_nil v vs (hu e)
    have ih := ih (hrun.append hp) hvs
    rw [literals_append hrun] at ih
    exact (List.prefix_append _ _).trans ih

/-- A run of literal text is written unit by unit. Let `g w us` be the text for the source `us`
after the text `w`. If `g` writes a unit that ends no run as the run writes it, then with its
bounds, and goes on after them, then it writes a whole run as the literals of the run do, and goes
on after it. -/
theorem literalRun_spec {rule : LiteralRule} {g : Text → Source → Text} {w : Text}
    (hpiece : ∀ run u us, u ≠ .plain '\\' → Paired (rule.piece run u us))
    (hg : ∀ run u us, rule.ends u = false → Proper (u :: us) →
      g (w ++ literals run) (u :: us) =
        literals (rule.piece run u us) ++ (takeRange us).1.suffix ++
          g (w ++ literals run ++ literals (rule.piece run u us) ++ (takeRange us).1.suffix)
            (takeRange us).2)
    (run : Text) (u : SourceUnit) (us : Source) (hrun : Paired run) (hu : rule.ends u = false)
    (h : Proper (u :: us)) :
    literals run ++ g (w ++ literals run) (u :: us) =
      (literalRun rule run u us).1.flatMap Literal.written ++
        g (w ++ (literalRun rule run u us).1.flatMap Literal.written)
          (literalRun rule run u us).2 := by
  fun_induction literalRun rule run u us with
  | case1 us run u piece bounds rest hr =>
    rw [hg run u us hu h, takeRange, hr, flatMap_written_split]
    simp [piece]
  | case2 run u piece hr =>
    rw [hg run u [] hu h, takeRange, hr]
    simp [piece, Literal.written, literals_append hrun]
  | case3 run u vs piece hr =>
    rw [hg run u _ hu h, takeRange, hr, flatMap_written_split]
    simp [piece]
  | case4 run u v vs hv he piece hr =>
    rw [hg run u _ hu h, takeRange, hr]
    simp [piece, Literal.written, literals_append hrun]
  | case5 run u v vs hv he piece hr ih =>
    obtain ⟨hb, hvs⟩ := proper_cons.1 h
    have hp : Paired piece := hpiece run u (v :: vs) fun e => by simpa using hb e
    have ih := ih (hrun.append hp) (Bool.eq_false_iff.2 he) hvs
    rw [literals_append hrun] at ih
    rw [← ih, hg run u _ hu h, takeRange, hr]
    simp [piece]

end Chain

end FluentRegex
