import FluentRegex.Proofs.Boundaries
import FluentRegex.Proofs.Layout

/-!
The lexemes of a laid out text, when the text is any that has lexemes and not only a printed chain.
The layout knows quotes, dots and spaces and nothing else of the lexemes; but it agrees with the
lexer on where quoted text ends, so it cuts between lexemes only, and every cut is made good by a
line feed. What is left to differ are dots: one may be dropped at a cut, and one may be put in after
it.
-/

namespace FluentRegex.Chain

/-! ### Texts along their lexemes -/

/-- Induction along a text by blanks and lexemes. -/
theorem Lexes.induction {P : Text → List Lexeme → Prop} (nil : P [] [])
    (blank : ∀ c t ls, Text.isBlank c = true → P t ls → P (c :: t) ls)
    (lexeme : ∀ c t l rest ls, Text.isBlank c = false → Chain.lexeme c t = .ok (l, rest) →
      P rest ls → P (c :: t) (l :: ls))
    {t : Text} {ls : List Lexeme} (h : Lexes t ls) : P t ls := by
  induction t using lexInduction generalizing ls with
  | nil =>
    obtain rfl : [] = ls := by simpa [Lexes] using h
    exact nil
  | blank c t hb ih =>
    rw [Lexes, lex_of_blank hb] at h
    exact blank c t ls hb (ih h)
  | error c t e hb he =>
    rw [Lexes, lex_of_error hb he] at h
    cases h.2
  | lexeme c w l rest hl ih =>
    rw [Lexes, hl.lex_append] at h
    obtain ⟨rfl, hc⟩ := h
    exact lexeme c _ l rest _ hl.isBlank hl.lexeme_append (ih ⟨rfl, hc⟩)

/-! ### What may follow a lexeme -/

/-- The text `rest'` ends whatever lexeme the text `rest` ends: it starts with the same character,
or with a line feed. -/
def EndsAs (rest rest' : Text) : Prop :=
  rest'.head? = rest.head? ∨ rest'.head? = some '\n'

theorem EndsAs.follows {rest rest' : Text} (h : EndsAs rest rest') : Follows rest rest' := by
  intro c hc
  rcases h with h | h
  · exact .inr (h ▸ hc)
  · obtain rfl : '\n' = c := by simpa [h] using hc
    exact .inl rfl

/-- The lexeme that the text from `c` on starts with holds no cut, and stays a lexeme before any
text that ends it as `rest` does. -/
def Movable (c : Char) (t : Text) (l : Lexeme) (rest : Text) : Prop :=
  ∃ w, t = w ++ rest ∧ Solid (c :: w) ∧
    ∀ rest', EndsAs rest rest' → lexeme c (w ++ rest') = .ok (l, rest')

theorem uncut_of_takeQuoted? {quote : Char} (hq : quote ≠ '\\') {w s : Text}
    (h : takeQuoted? quote w = some (s, [])) :
    Quoting.run (.inside quote) w = .outside ∧
      ∀ before after, Uncut (.inside quote) before w after := by
  fun_induction takeQuoted? quote w generalizing s with
  | case1 => cases h
  | case2 c t ih =>
    simp only [Option.map_eq_some_iff, Prod.mk.injEq, Prod.exists] at h
    obtain ⟨s, _, h, rfl, rfl⟩ := h
    obtain ⟨hr, hu⟩ := ih h
    exact ⟨hr, fun before after => ⟨rfl, rfl, hu _ _⟩⟩
  | case3 t hb =>
    cases h
    exact ⟨by simp [Quoting.run, Quoting.step, hq], fun before after => ⟨rfl, trivial⟩⟩
  | case4 c t hb hc ih =>
    simp only [Option.map_eq_some_iff, Prod.mk.injEq, Prod.exists] at h
    obtain ⟨s, _, h, rfl, rfl⟩ := h
    have hc' : c ≠ '\\' := by
      rintro rfl
      cases t with
      | nil => cases h
      | cons d t => exact hb d t rfl rfl
    have hs : Quoting.step (.inside quote) c = .inside quote := by simp [Quoting.step, hc', hc]
    obtain ⟨hr, hu⟩ := ih h
    refine ⟨?_, fun before after => ⟨rfl, ?_⟩⟩
    · rw [Quoting.run, List.foldl_cons, hs]
      exact hr
    · rw [hs]
      exact hu _ _

/-- No lexeme but the dot holds a cut. -/
theorem Spelled.solid {c : Char} {w rest : Text} {l : Lexeme} (h : Spelled c w l rest)
    (hb : Text.isBlank c = false) (hd : c ≠ '.') : Solid (c :: w) := by
  have hs : c ≠ ' ' := by
    rintro rfl
    cases hb
  cases h with
  | punctuation hp => exact .cons (isQuote_of_punctuation hp) hd hs solid_nil
  | arrow => exact solid_of_forall (by simp [isQuote])
  | @quoted c w s rest hq ht =>
    obtain ⟨hr, hu⟩ := uncut_of_takeQuoted? (ne_backslash_of_isQuote hq) (ht [])
    have hi : Quoting.step .outside c = .inside c := by simp [Quoting.step, hq]
    refine ⟨?_, fun before after => ⟨?_, ?_⟩⟩
    · rw [Quoting.run, List.foldl_cons, hi]
      exact hr
    · simp [isBoundary, hd, hs]
    · rw [hi]
      exact hu _ _
  | number hc hw hn hr =>
    refine solid_of_forall fun e he => ?_
    have hd : e.isDigit = true := (List.mem_cons.1 he).elim (fun h => h ▸ hc) (hw e)
    exact ⟨by simp [isQuote, ne_of_isDigit hd], ne_of_isDigit hd rfl, ne_of_isDigit hd rfl⟩
  | name hd hc hw hr =>
    have hc : isNamePart c = true := by simp [isNamePart, hc]
    refine solid_of_forall fun e he => ?_
    have hp : isNamePart e = true := (List.mem_cons.1 he).elim (fun h => h ▸ hc) (hw e)
    have hm := notMem_separators hp
    simp only [separators, List.mem_cons, List.not_mem_nil, or_false, not_or] at hm
    simp [isQuote, hm]

/-- Every lexeme but the dot can be moved. -/
theorem movable_of_lexeme {c : Char} {t rest : Text} {l : Lexeme} (hb : Text.isBlank c = false)
    (hd : c ≠ '.') (h : lexeme c t = .ok (l, rest)) : Movable c t l rest := by
  obtain ⟨w, rfl, hw⟩ := exists_spelled h
  exact ⟨w, rfl, hw.solid hb hd, fun rest' he => (hw.of_follows he.follows).lexeme_append⟩

/-! ### The layout from a point on -/

/-- The text of segments that are laid out from a depth on: the first segment goes on with the line
before it, and every other one stands on a line of its own. -/
def relaid (depth : Nat) (ss : Text × List Text) : Text :=
  ss.1 ++ feedLines (linesFrom depth ss.2)

theorem layOut_eq (t : Text) : layOut t = relaid 1 (segments t) := by
  rw [layOut, lines, List.map_cons, join_cons, relaid]
  simp [feedLines, Line.print, List.flatMap_map]

/-- A segment makes a line of its own, with at most a dot before it. -/
theorem linesFrom_cons (depth : Nat) (s : Text) (ss : List Text) :
    ∃ (indent depth' : Nat) (dot : Text), (dot = [] ∨ dot = ['.']) ∧
      linesFrom depth (s :: ss) = ⟨indent, dot ++ s⟩ :: linesFrom depth' ss := by
  rw [linesFrom]
  split_ifs
  · exact ⟨depth + 1, depth + 2, [], .inl rfl, rfl⟩
  · exact ⟨depth - 2, depth - 2, [], .inl rfl, rfl⟩
  · exact ⟨depth, depth, ['.'], .inr rfl, rfl⟩

/-- Behind a cut there are a line feed, blanks and at most one dot. -/
theorem relaid_cut (depth : Nat) (ss : Text × List Text) :
    ∃ (indent depth' : Nat) (dot : Text), (dot = [] ∨ dot = ['.']) ∧
      relaid depth ([], ss.1 :: ss.2) =
        '\n' :: (List.replicate (2 * indent) ' ' ++ (dot ++ relaid depth' ss)) := by
  obtain ⟨indent, depth', dot, hdot, e⟩ := linesFrom_cons depth ss.1 ss.2
  exact ⟨indent, depth', dot, hdot, by simp [relaid, e, feedLines, Line.print]⟩

/-- The layout from a point on ends a lexeme before it just as the text does. -/
theorem endsAs_relaid (before t : Text) (depth : Nat) :
    EndsAs t (relaid depth (segmentsFrom .outside before t)) := by
  cases t with
  | nil => exact .inl rfl
  | cons c t =>
    rw [segmentsFrom]
    split
    next first others _ =>
    split
    · obtain ⟨_, _, _, -, e⟩ := relaid_cut depth (first, others)
      rw [e]
      exact .inr rfl
    · exact .inl rfl

/-! ### Lexemes without dots -/

def dotless (ls : List Lexeme) : List Lexeme :=
  ls.filter (· ≠ .dot)

theorem dotless_dot (ls : List Lexeme) : dotless (.dot :: ls) = dotless ls := rfl

theorem dotless_cons {ms ls : List Lexeme} (l : Lexeme) (h : dotless ms = dotless ls) :
    dotless (l :: ms) = dotless (l :: ls) := by
  unfold dotless at h ⊢
  rw [List.filter_cons, List.filter_cons, h]

/-- What is laid out behind a cut has the lexemes of the text there, and perhaps a dot before
them. -/
theorem Lexes.cut {ss : Text × List Text} {ls : List Lexeme}
    (h : ∀ depth, ∃ ms, Lexes (relaid depth ss) ms ∧ dotless ms = ls) (depth : Nat) :
    ∃ ms, Lexes (relaid depth ([], ss.1 :: ss.2)) ms ∧ dotless ms = ls := by
  obtain ⟨indent, depth', dot, hdot, e⟩ := relaid_cut depth ss
  obtain ⟨ms, hms, hls⟩ := h depth'
  have hb : ∀ c ∈ List.replicate (2 * indent) ' ', Text.isBlank c = true := fun c hc => by
    rw [List.eq_of_mem_replicate hc]
    rfl
  rw [e]
  rcases hdot with rfl | rfl
  · exact ⟨ms, (hms.of_blanks hb).of_blank rfl, hls⟩
  · exact ⟨.dot :: ms, ((hms.punctuation (c := '.') rfl).of_blanks hb).of_blank rfl, hls⟩

theorem segmentsFrom_cons {c : Char} (hq : isQuote c = false) (before t : Text) :
    segmentsFrom .outside before (c :: t) =
      if isBoundary before c t then
        ([], (segmentsFrom .outside (c :: before) t).1 :: (segmentsFrom .outside (c :: before) t).2)
      else (c :: (segmentsFrom .outside (c :: before) t).1,
        (segmentsFrom .outside (c :: before) t).2) := by
  have hs : Quoting.outside.step c = .outside := by simp [Quoting.step, hq]
  rw [segmentsFrom, hs]
  simp

/-- From every point of a text on that is not inside of quoted text, the layout has the lexemes of
the text except for dots. -/
theorem lexes_relaid {t : Text} {ls : List Lexeme} (h : Lexes t ls) :
    ∀ before depth, ∃ ms, Lexes (relaid depth (segmentsFrom .outside before t)) ms ∧
      dotless ms = dotless ls := by
  refine Lexes.induction (P := fun t ls => ∀ before depth, ∃ ms,
    Lexes (relaid depth (segmentsFrom .outside before t)) ms ∧ dotless ms = dotless ls)
    ?nil ?blank ?lexeme h
  case nil => exact fun _ _ => ⟨[], lexes_nil, rfl⟩
  case blank =>
    intro c t ls hb ih before depth
    rw [segmentsFrom_cons (isQuote_of_isBlank hb)]
    split
    · exact Lexes.cut (ih _) depth
    · obtain ⟨ms, hms, e⟩ := ih (c :: before) depth
      exact ⟨ms, hms.of_blank hb, e⟩
  case lexeme =>
    intro c t l rest ls hb hl ih before depth
    by_cases hd : c = '.'
    · subst hd
      cases hl
      rw [segmentsFrom_cons rfl, dotless_dot]
      split
      · exact Lexes.cut (ih _) depth
      · obtain ⟨ms, hms, e⟩ := ih ('.' :: before) depth
        exact ⟨.dot :: ms, hms.punctuation rfl, e⟩
    · obtain ⟨w, rfl, hw, hmove⟩ := movable_of_lexeme hb hd hl
      rw [← List.cons_append, segmentsFrom_append (hw.2 _ _), hw.1]
      obtain ⟨ms, hms, e⟩ := ih ((c :: w).reverse ++ before) depth
      have := hms.of_lexeme hb (hmove _ (endsAs_relaid _ rest depth))
      exact ⟨l :: ms, by simpa [relaid] using this, dotless_cons l e⟩

def Lexeme.quotedText? : Lexeme → Option Text
  | .text s => some s
  | _ => none

theorem filterMap_dotless (ls : List Lexeme) :
    (dotless ls).filterMap Lexeme.quotedText? = ls.filterMap Lexeme.quotedText? := by
  have h : (fun l : Lexeme => if decide (l ≠ .dot) then l.quotedText? else none) =
      Lexeme.quotedText? := by
    funext l
    cases l <;> rfl
  rw [dotless, List.filterMap_filter, h]

/-- Laying out any text that has lexemes keeps them except for dots, and so keeps every quoted
text in it. -/
theorem lexes_layOut {t : Text} {ls : List Lexeme} (h : Lexes t ls) :
    ∃ ms, Lexes (layOut t) ms ∧ dotless ms = dotless ls ∧
      ms.filterMap Lexeme.quotedText? = ls.filterMap Lexeme.quotedText? := by
  obtain ⟨ms, hms, e⟩ := lexes_relaid h [] 1
  exact ⟨ms, by rwa [layOut_eq], e, by rw [← filterMap_dotless ms, e, filterMap_dotless]⟩

/-- A dot in quoted text stays where it is, and a brace after a space gains one. -/
theorem lexes_layOut_brace :
    Lexes "exp.a(').b').c) \x7d".toList
      [.name "exp".toList, .dot, .name "a".toList, .leftParen, .text ").b".toList, .rightParen,
        .dot, .name "c".toList, .rightParen, .rightBrace] ∧
    ∃ ms, Lexes (layOut "exp.a(').b').c) \x7d".toList) ms ∧
      dotless ms = [.name "exp".toList, .name "a".toList, .leftParen, .text ").b".toList,
        .rightParen, .name "c".toList, .rightParen, .rightBrace] := by
  have h : Lexes "exp.a(').b').c) \x7d".toList
      [.name "exp".toList, .dot, .name "a".toList, .leftParen, .text ").b".toList, .rightParen,
        .dot, .name "c".toList, .rightParen, .rightBrace] := by
    rw [Lexes]
    decide +kernel
  obtain ⟨ms, hms, e, -⟩ := lexes_layOut h
  exact ⟨h, ms, hms, e⟩

end FluentRegex.Chain
