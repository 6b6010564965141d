import FluentRegex.Chain.Layout
import FluentRegex.Proofs.Printing
import Mathlib.Tactic.SplitIfs

/-!
The layout of a printed chain. It works on text alone, but on the text of a chain it cuts just at
the boundaries of the tree: before each call, and on both sides of the calls of a body. So its lines
are found by recursion over the calls, and they have the lexemes of the chain.
-/

namespace FluentRegex

namespace Chain

/-! ### Text without cuts -/

def Quoting.run (q : Quoting) (t : Text) : Quoting :=
  t.foldl Quoting.step q

/-- No character of the text is cut away when it stands between `before`, given with its last
character first, and `after`. -/
def Uncut (q : Quoting) (before t after : Text) : Prop :=
  match t with
  | [] => True
  | c :: t =>
    (q = .outside && isBoundary before c (t ++ after)) = false ∧
      Uncut (q.step c) (c :: before) t after

theorem segmentsFrom_append {q : Quoting} {before t after : Text} (h : Uncut q before t after) :
    segmentsFrom q before (t ++ after) =
      (t ++ (segmentsFrom (q.run t) (t.reverse ++ before) after).1,
        (segmentsFrom (q.run t) (t.reverse ++ before) after).2) := by
  induction t generalizing q before with
  | nil => rfl
  | cons c t ih =>
    obtain ⟨hc, ht⟩ := h
    rw [List.cons_append, segmentsFrom, ih ht, hc]
    simp [Quoting.run]

theorem uncut_append {q : Quoting} {before s t after : Text} (hs : Uncut q before s (t ++ after))
    (ht : Uncut (q.run s) (s.reverse ++ before) t after) : Uncut q before (s ++ t) after := by
  induction s generalizing q before with
  | nil => exact ht
  | cons c s ih =>
    refine ⟨?_, ih hs.2 (by simpa [Quoting.run] using ht)⟩
    have := hs.1
    rwa [← List.append_assoc] at this

theorem Quoting.run_append (q : Quoting) (s t : Text) : q.run (s ++ t) = (q.run s).run t :=
  List.foldl_append

/-- The text leaves quoting as it is and holds no cut, wherever it stands. -/
def Solid (t : Text) : Prop :=
  Quoting.run .outside t = .outside ∧ ∀ before after, Uncut .outside before t after

theorem Solid.append {s t : Text} (hs : Solid s) (ht : Solid t) : Solid (s ++ t) := by
  refine ⟨by rw [Quoting.run_append, hs.1, ht.1], fun before after => ?_⟩
  refine uncut_append (hs.2 _ _) ?_
  rw [hs.1]
  exact ht.2 _ _

theorem solid_nil : Solid [] :=
  ⟨rfl, fun _ _ => trivial⟩

theorem Solid.cons {c : Char} {t : Text} (hq : isQuote c = false) (hd : c ≠ '.') (hs : c ≠ ' ')
    (ht : Solid t) : Solid (c :: t) := by
  have hstep : Quoting.step .outside c = .outside := by simp [Quoting.step, hq]
  refine ⟨by rw [Quoting.run, List.foldl_cons, hstep]; exact ht.1, fun before after => ⟨?_, ?_⟩⟩
  · simp [isBoundary, hd, hs]
  · rw [hstep]; exact ht.2 _ _

/-- Letters and digits hold no cut. -/
theorem solid_of_forall {t : Text} (h : ∀ c ∈ t, isQuote c = false ∧ c ≠ '.' ∧ c ≠ ' ') :
    Solid t := by
  induction t with
  | nil => exact solid_nil
  | cons c t ih =>
    obtain ⟨hq, hd, hs⟩ := h c (by simp)
    exact .cons hq hd hs (ih fun d hd => h d (by simp [hd]))

/-! ### Pieces of a call -/

/-- Quoted characters hold no cut and stay inside of their quotes. -/
theorem uncut_quotedChar (c : Char) (before after : Text) :
    Uncut (.inside '"') before (quotedChar c) after ∧
      Quoting.run (.inside '"') (quotedChar c) = .inside '"' := by
  unfold quotedChar
  split_ifs <;> simp_all [Uncut, Quoting.run, Quoting.step]

theorem uncut_quotedChars (t before after : Text) :
    Uncut (.inside '"') before (t.flatMap quotedChar) after ∧
      Quoting.run (.inside '"') (t.flatMap quotedChar) = .inside '"' := by
  induction t generalizing before with
  | nil => exact ⟨trivial, rfl⟩
  | cons c t ih =>
    obtain ⟨hu, hr⟩ := uncut_quotedChar c before (t.flatMap quotedChar ++ after)
    obtain ⟨hu', hr'⟩ := ih ((quotedChar c).reverse ++ before)
    rw [List.flatMap_cons]
    refine ⟨uncut_append hu ?_, by rw [Quoting.run_append, hr, hr']⟩
    rwa [hr]

theorem solid_quoted (t : Text) : Solid (quoted t) := by
  have hr : Quoting.run (.inside '"') (t.flatMap quotedChar ++ ['"']) = .outside := by
    rw [Quoting.run_append, (uncut_quotedChars t [] []).2]
    rfl
  refine ⟨by simpa [quoted, Quoting.run, Quoting.step, isQuote] using hr, fun before after => ?_⟩
  refine ⟨rfl, uncut_append (uncut_quotedChars t _ _).1 ?_⟩
  change Uncut (Quoting.run (.inside '"') (t.flatMap quotedChar)) _ ['"'] after
  rw [(uncut_quotedChars t [] []).2]
  exact ⟨rfl, trivial⟩

theorem solid_numeral (n : Nat) : Solid (Text.numeral n) := by
  refine solid_of_forall fun c hc => ?_
  have hd := Text.isDigit_of_mem_numeral hc
  refine ⟨?_, ne_of_isDigit hd rfl, ne_of_isDigit hd rfl⟩
  simp [isQuote, ne_of_isDigit hd]

theorem solid_letters {t : Text} (h : t.all Char.isAlpha = true) : Solid t := by
  refine solid_of_forall fun c hc => ?_
  have ha := List.all_eq_true.1 h c hc
  refine ⟨?_, ne_of_isAlpha ha rfl, ne_of_isAlpha ha rfl⟩
  simp [isQuote, ne_of_isAlpha ha]

theorem solid_argument (a : Argument) : Solid a.print := by
  cases a with
  | number n => exact solid_numeral n.toNat
  | text t => exact solid_quoted t

theorem solid_comma : Solid [',', ' '] :=
  ⟨rfl, fun _ _ => ⟨rfl, rfl, trivial⟩⟩

theorem solid_arguments (args : List Argument) :
    Solid (Text.join [',', ' '] (args.map Argument.print)) := by
  induction args with
  | nil => exact solid_nil
  | cons a args ih =>
    cases args with
    | nil => exact solid_argument a
    | cons b args => exact ((solid_argument a).append solid_comma).append ih

theorem solid_look {m n : Text} (hm : m.all Char.isAlpha = true) (hn : n.all Char.isAlpha = true) :
    Solid (m ++ ['k', '.'] ++ n) := by
  have hk : Solid ['k', '.'] := ⟨rfl, fun _ _ => ⟨rfl, rfl, trivial⟩⟩
  exact ((solid_letters hm).append hk).append (solid_letters hn)

/-- The dot in the name of a lookaround is no cut, since neither the builder nor a call is named
before it. -/
theorem solid_operation (o : Operation) : Solid o.name := by
  rcases o with k | _ | _ | (g | b)
  · exact solid_letters (by cases k <;> rfl)
  · exact solid_letters rfl
  · exact solid_letters rfl
  · cases g with
    | capturing => exact solid_letters rfl
    | lookahead => exact solid_look (m := "loo".toList) (n := "ahead".toList) rfl rfl
    | negativeLookahead =>
      exact solid_look (m := "negativeLoo".toList) (n := "ahead".toList) rfl rfl
    | lookbehind => exact solid_look (m := "loo".toList) (n := "behind".toList) rfl rfl
    | negativeLookbehind =>
      exact solid_look (m := "negativeLoo".toList) (n := "behind".toList) rfl rfl
  · exact solid_letters (by cases b <;> rfl)

def callOpening (o : Operation) : Text :=
  o.name ++ ['(', '('] ++ root ++ [')', ' ', '=', '>', ' ', '{']

theorem solid_root : Solid root :=
  solid_letters rfl

theorem solid_callOpening (o : Operation) : Solid (callOpening o) := by
  refine (((solid_operation o).append ?_).append solid_root).append ?_
  · exact .cons rfl (by decide) (by decide) (.cons rfl (by decide) (by decide) solid_nil)
  · exact ⟨rfl, fun _ _ => ⟨rfl, rfl, rfl, rfl, rfl, rfl, trivial⟩⟩

/-! ### Segments of a printed chain -/

/-- Text that ends in the name of the builder or in a closing parenthesis, its last character
first: a list of calls can go on or end there. -/
def EndsCall (before : Text) : Prop :=
  endsInRoot before = true ∨ before.head? = some ')'

/-- Wherever a list of calls can go on or end, the text starts with a cut or is empty, and these are
its segments. -/
def CutsInto (t : Text) (ss : List Text) : Prop :=
  ∀ before, EndsCall before → segmentsFrom .outside before t = ([], ss)

theorem cutsInto_nil : CutsInto [] [] :=
  fun _ _ => rfl

theorem isBoundary_dot {before : Text} (h : EndsCall before) (after : Text) :
    isBoundary before '.' after = true := by
  rcases h with h | h <;> simp [isBoundary, h]

theorem CutsInto.segment {s t : Text} {ss : List Text} (hs : Solid (s ++ [')']))
    (ht : CutsInto t ss) : CutsInto ('.' :: (s ++ [')']) ++ t) ((s ++ [')']) :: ss) := by
  intro before hb
  have hrest := ht ((s ++ [')']).reverse ++ '.' :: before) (.inr (by simp))
  rw [List.cons_append, segmentsFrom, show Quoting.outside.step '.' = .outside from rfl,
    segmentsFrom_append (hs.2 _ _), hs.1, hrest, isBoundary_dot hb]
  simp

/-- The name of the builder at the start of a body is a segment of its own. -/
theorem segmentsFrom_root (before : Text) {t : Text} {ss : List Text} (ht : CutsInto t ss) :
    segmentsFrom .outside before (root ++ t) = (root, ss) := by
  rw [segmentsFrom_append (solid_root.2 _ _), solid_root.1, ht _ (.inl rfl)]
  simp

/-- The space before the brace that closes a body is a cut, and what follows it is a segment. -/
theorem CutsInto.closing {t : Text} {ss : List Text} (ht : CutsInto t ss) :
    CutsInto (bodyClosing ++ [')'] ++ t) (bodyEnd :: ss) := by
  intro before hb
  have hcut : isBoundary before ' ' ('}' :: ')' :: t) = true := by
    rcases hb with h | h <;> simp [isBoundary, h]
  have hs : Solid bodyEnd :=
    .cons rfl (by decide) (by decide) (.cons rfl (by decide) (by decide) solid_nil)
  have hrest := ht (bodyEnd.reverse ++ ' ' :: before) (.inr rfl)
  have he : segmentsFrom .outside (' ' :: before) (bodyEnd ++ t) = (bodyEnd, ss) := by
    rw [segmentsFrom_append (hs.2 _ _), hs.1, hrest, List.append_nil]
  change segmentsFrom .outside before (' ' :: (bodyEnd ++ t)) = _
  rw [segmentsFrom, show Quoting.outside.step ' ' = .outside from rfl, he]
  simp [show isBoundary before ' ' (bodyEnd ++ t) = true from hcut]

/-- A call with a callback has its opening, the builder, the calls of the body and its end as
segments. -/
theorem CutsInto.callback {o : Operation} {t : Text} {ss : List Text}
    (ht : CutsInto t ss) : CutsInto ('.' :: (callOpening o ++ ' ' :: (root ++ t)))
      (callOpening o :: root :: ss) := by
  intro before hb
  have ho := solid_callOpening o
  have hcut : isBoundary ((callOpening o).reverse ++ '.' :: before) ' ' (root ++ t) = true := by
    have : root.isPrefixOf (root ++ t) = true := by simp
    simp [callOpening, isBoundary, this]
  rw [segmentsFrom, show Quoting.outside.step '.' = .outside from rfl,
    segmentsFrom_append (ho.2 _ _), ho.1, segmentsFrom,
    show Quoting.outside.step ' ' = .outside from rfl, segmentsFrom_root _ ht, hcut,
    isBoundary_dot hb]
  simp

end Chain

mutual

def Call.segments : Call → List Text
  | .plain o args => [Call.print (.plain o args)]
  | .callback o _ body =>
    Chain.callOpening o :: Chain.root :: (Chain.callsSegments body ++ [Chain.bodyEnd])

def Chain.callsSegments : List Call → List Text
  | [] => []
  | c :: cs => c.segments ++ Chain.callsSegments cs

end

mutual

/-- The lines of a call that is indented to a depth. The builder of a body stands one level deeper,
and the calls of the body two. -/
def Call.lines (depth : Nat) : Call → List Chain.Line
  | .plain o args => [⟨depth, '.' :: Call.print (.plain o args)⟩]
  | .callback o _ body =>
    ⟨depth, '.' :: Chain.callOpening o⟩ :: ⟨depth + 1, Chain.root⟩ ::
      (Chain.callsLines (depth + 2) body ++ [⟨depth, Chain.bodyEnd⟩])

def Chain.callsLines (depth : Nat) : List Call → List Chain.Line
  | [] => []
  | c :: cs => c.lines depth ++ Chain.callsLines depth cs

end

namespace Chain

def doneLines : Option Text → List Line
  | none => []
  | some flags => [⟨1, '.' :: printDone flags⟩]

mutual

theorem cutsInto_call : (c : Call) → {t : Text} → {ss : List Text} → CutsInto t ss →
    CutsInto ('.' :: c.print ++ t) (c.segments ++ ss)
  | .plain o args, t, ss, h => by
    have hs : Solid
        (o.name ++ ['('] ++ Text.join [',', ' '] (args.map Argument.print) ++ [')']) := by
      have hp : ∀ c : Char, isQuote c = false ∧ c ≠ '.' ∧ c ≠ ' ' → Solid [c] := fun c hc =>
        .cons hc.1 hc.2.1 hc.2.2 solid_nil
      exact (((solid_operation o).append (hp _ (by decide))).append (solid_arguments args)).append
        (hp _ (by decide))
    exact h.segment hs
  | .callback o args body, t, ss, h => by
    have hb := (cutsInto_calls body h.closing).callback (o := o)
    simpa [Call.print, Call.segments, callOpening, bodyOpening_eq] using hb

theorem cutsInto_calls : (cs : List Call) → {t : Text} → {ss : List Text} → CutsInto t ss →
    CutsInto (printCalls cs ++ t) (callsSegments cs ++ ss)
  | [], t, ss, h => by simpa [printCalls, callsSegments] using h
  | c :: cs, t, ss, h => by
    have := cutsInto_call c (cutsInto_calls cs h)
    simpa [printCalls, callsSegments] using this

end

/-! ### Lines of a printed chain -/

theorem linesFrom_call {s : Text} (h : '(' ∈ s) (depth : Nat) (ss : List Text) :
    linesFrom depth (s :: ss) = ⟨depth, '.' :: s⟩ :: linesFrom depth ss := by
  have hr : s ≠ root := by rintro rfl; exact absurd h (by decide)
  have he : s ≠ bodyEnd := by rintro rfl; exact absurd h (by decide)
  rw [linesFrom, if_neg hr, if_neg he]

mutual

theorem linesFrom_callSegments : (c : Call) → (depth : Nat) → (ss : List Text) →
    linesFrom depth (c.segments ++ ss) = c.lines depth ++ linesFrom depth ss
  | .plain o args, depth, ss => linesFrom_call (by simp [Call.print]) depth ss
  | .callback o args body, depth, ss => by
    have hr : linesFrom depth (root :: (callsSegments body ++ bodyEnd :: ss)) =
        ⟨depth + 1, root⟩ :: linesFrom (depth + 2) (callsSegments body ++ bodyEnd :: ss) := by
      rw [linesFrom, if_pos rfl]
    have he : linesFrom (depth + 2) (bodyEnd :: ss) = ⟨depth, bodyEnd⟩ :: linesFrom depth ss := by
      rw [linesFrom, if_neg (by decide), if_pos rfl, Nat.add_sub_cancel]
    have ho := linesFrom_call (s := callOpening o) (by simp [callOpening]) depth
      (root :: (callsSegments body ++ bodyEnd :: ss))
    rw [hr, linesFrom_callsSegments body (depth + 2), he] at ho
    simpa [Call.segments, Call.lines] using ho

theorem linesFrom_callsSegments : (cs : List Call) → (depth : Nat) → (ss : List Text) →
    linesFrom depth (callsSegments cs ++ ss) = callsLines depth cs ++ linesFrom depth ss
  | [], depth, ss => rfl
  | c :: cs, depth, ss => by
    rw [callsSegments, List.append_assoc, linesFrom_callSegments c,
      linesFrom_callsSegments cs, callsLines, List.append_assoc]

end

theorem segments_print (c : Chain) :
    segments c.print =
      (root, callsSegments c.calls ++ c.flags.toList.map printDone) := by
  obtain ⟨cs, flags⟩ := c
  cases flags with
  | none =>
    have := segmentsFrom_root [] (cutsInto_calls cs cutsInto_nil)
    simpa [segments, print] using this
  | some flags =>
    have hd : Solid ("done(".toList ++ quoted flags ++ [')']) := by
      refine (Solid.append ?_ (solid_quoted flags)).append ?_
      · exact solid_of_forall (by simp [isQuote])
      · exact solid_of_forall (by simp [isQuote])
    have := segmentsFrom_root [] (cutsInto_calls cs (cutsInto_nil.segment hd))
    simpa [segments, print, printDone] using this

/-- The lines of a printed chain are the builder, the calls one level deep and the end. -/
theorem lines_of_print (c : Chain) :
    lines c.print = ⟨0, root⟩ :: (callsLines 1 c.calls ++ doneLines c.flags) := by
  rw [lines, segments_print]
  simp only
  rw [linesFrom_callsSegments]
  cases c.flags with
  | none => rfl
  | some flags => rw [Option.toList, List.map_singleton, linesFrom_call (by simp [printDone])]; rfl

/-! ### Lexemes of the layout -/

theorem join_cons (separator t : Text) (ts : List Text) :
    Text.join separator (t :: ts) = t ++ ts.flatMap (separator ++ ·) := by
  induction ts generalizing t with
  | nil => simp [Text.join]
  | cons u us ih =>
    rw [Text.join, ih]
    · simp
    · simp

/-- Lines with the feed before each of them. -/
def feedLines (ls : List Line) : Text :=
  ls.flatMap fun l => '\n' :: l.print

variable {t : Text} {ls : List Lexeme}

theorem feedLines_append (ks ls : List Line) :
    feedLines (ks ++ ls) = feedLines ks ++ feedLines ls :=
  List.flatMap_append

theorem lexes_line (depth : Nat) {s : Text} (h : Lexes (s ++ t) ls) :
    Lexes (feedLines [⟨depth, s⟩] ++ t) ls := by
  have hb : ∀ c ∈ List.replicate (2 * depth) ' ', Text.isBlank c = true := fun c hc => by
    rw [List.eq_of_mem_replicate hc]; rfl
  simpa [feedLines, Line.print] using (h.of_blanks hb).of_blank (c := '\n') rfl

theorem head?_feedLines (ks : List Line) (ht : t.head?.all (!isNamePart ·) = true) :
    (feedLines ks ++ t).head?.all (!isNamePart ·) = true := by
  cases ks with
  | nil => exact ht
  | cons k ks => rfl

mutual

theorem lexes_callLines : (c : Call) → (depth : Nat) → {t : Text} → {ls : List Lexeme} →
    Lexes t ls → Lexes (feedLines (c.lines depth) ++ t) (.dot :: (c.lexemes ++ ls))
  | .plain o args, depth, t, ls, h =>
    lexes_line depth ((lexes_call (.plain o args) h).punctuation (c := '.') rfl)
  | .callback o args body, depth, t, ls, h => by
    have he : Lexes (feedLines [⟨depth, bodyEnd⟩] ++ t) (.rightBrace :: .rightParen :: ls) :=
      lexes_line depth ((h.punctuation (c := ')') rfl).punctuation (c := '}') rfl)
    have hb := lexes_callsLines body (depth + 2) he
    have hr := lexes_line (depth + 1) (lexes_root (head?_feedLines _ rfl) hb)
    have h₁ := (Lexes.of_blank (c := ' ') rfl (hr.punctuation (c := '{') rfl)).arrow
    have h₂ := lexes_root (by rfl) ((Lexes.of_blank (c := ' ') rfl h₁).punctuation (c := ')') rfl)
    have h₃ := lexes_operation o (by rfl)
      ((h₂.punctuation (c := '(') rfl).punctuation (c := '(') rfl)
    have := lexes_line depth (s := '.' :: callOpening o) (t := _)
      (by simpa [callOpening] using h₃.punctuation (c := '.') rfl)
    simpa [Call.lines, Call.lexemes, feedLines] using this

theorem lexes_callsLines : (cs : List Call) → (depth : Nat) → {t : Text} → {ls : List Lexeme} →
    Lexes t ls → Lexes (feedLines (callsLines depth cs) ++ t) (callsLexemes cs ++ ls)
  | [], depth, t, ls, h => by simpa [callsLines, callsLexemes, feedLines] using h
  | c :: cs, depth, t, ls, h => by
    have := lexes_callLines c depth (lexes_callsLines cs depth h)
    simpa [callsLines, callsLexemes, feedLines_append] using this

end

theorem lexes_doneLines (flags : Option Text) :
    Lexes (feedLines (doneLines flags)) (doneLexemes flags) := by
  cases flags with
  | none => exact lexes_nil
  | some flags => simpa [doneLines] using lexes_line 1 (lexes_done flags lexes_nil)

theorem lexes_pretty (c : Chain) : Lexes c.pretty c.lexemes := by
  have h := lexes_callsLines c.calls 1 (lexes_doneLines c.flags)
  have hh : (feedLines (callsLines 1 c.calls) ++ feedLines (doneLines c.flags)).head?.all
      (!isNamePart ·) = true := by
    refine head?_feedLines _ ?_
    cases c.flags <;> rfl
  have he : c.pretty =
      root ++ (feedLines (callsLines 1 c.calls) ++ feedLines (doneLines c.flags)) := by
    rw [pretty, layOut, lines_of_print, List.map_cons, join_cons, ← feedLines_append]
    simp [feedLines, Line.print, List.flatMap_map]
  rw [he]
  exact lexes_root hh h

end Chain

end FluentRegex
