import FluentRegex.Proofs.Boundaries
import FluentRegex.Proofs.Recognition
import Mathlib.Tactic.SplitIfs

/-!
Reading does not depend on the layout. Blanks put in where one lexeme has ended and the next has not
started leave the lexemes as they are and only move them, and the reader uses the place of a lexeme
for nothing but the place of an error. So the text is read as the same chain, or it is rejected for
the same reason.
-/

namespace FluentRegex.Chain

variable {c : Char} {t t' w : Text} {l : Lexeme}

/-! ### Blanks between lexemes -/

/-- The second text is the first with blanks put in at will, before the first lexeme, after the last
one or between two. What is no lexeme is not broken up either: a run of digits, be its value too
large, stays one, and of a text that is not closed nothing changes. -/
inductive Respaced : Text → Text → Prop
  | same (t : Text) : Respaced t t
  | insert {c : Char} {t t' : Text} (hb : Text.isBlank c = true) (h : Respaced t t') :
      Respaced t (c :: t')
  | blank {c : Char} {t t' : Text} (hb : Text.isBlank c = true) (h : Respaced t t') :
      Respaced (c :: t) (c :: t')
  | lexeme {c : Char} {w t t' : Text} {l : Lexeme} (hl : Spelled c w l t) (h : Respaced t t') :
      Respaced (c :: (w ++ t)) (c :: (w ++ t'))
  | digits {c : Char} {w t t' : Text} (hw : ∀ d ∈ c :: w, d.isDigit = true)
      (ht : Stops Char.isDigit t) (h : Respaced t t') : Respaced (c :: (w ++ t)) (c :: (w ++ t'))
  | unexpected {c : Char} {t t' : Text} (hb : Text.isBlank c = false)
      (he : Chain.lexeme c t = .error (.unexpected c)) (h : Respaced t t') :
      Respaced (c :: t) (c :: t')

/-- What blanks are put into ends a lexeme before it as the text did. -/
theorem Respaced.follows (h : Respaced t t') : Follows t t' := by
  intro d hd
  cases h with
  | same => exact .inr hd
  | insert hb h =>
    obtain rfl : _ = d := by simpa using hd
    exact .inl hb
  | _ => exact .inr hd

/-- At every boundary of a text blanks can be put in. -/
theorem Boundary.respaced {before rest rest' blanks : Text} (h : Boundary before rest)
    (hb : ∀ c ∈ blanks, Text.isBlank c = true) (hr : Respaced rest rest') :
    Respaced (before ++ rest) (before ++ (blanks ++ rest')) := by
  induction h with
  | start rest =>
    induction blanks with
    | nil => exact hr
    | cons c blanks ih =>
      obtain ⟨hc, hb⟩ := List.forall_mem_cons.1 hb
      exact .insert hc (ih hb)
  | blank hc h ih => exact .blank hc (ih hr)
  | lexeme hl h ih =>
    simp only [List.cons_append, List.append_assoc]
    exact .lexeme hl (ih hr)

theorem lexeme_unexpected_iff : lexeme c t = .error (.unexpected c) ↔
    punctuation? c = none ∧ ¬ (c = '=' ∧ t.head? = some '>') ∧ isQuote c = false ∧
      c.isDigit = false ∧ isNameStart c = false := by
  fun_cases lexeme c t <;> simp_all

/-- A character starts no lexeme before any text that begins as the old one did, or with a blank. -/
theorem lexeme_unexpected (h : lexeme c t = .error (.unexpected c)) (hf : Follows t t') :
    lexeme c t' = .error (.unexpected c) := by
  rw [lexeme_unexpected_iff] at h ⊢
  refine ⟨h.1, fun ⟨hc, hg⟩ => ?_, h.2.2⟩
  rcases hf _ hg with hb | hg
  · cases hb
  · exact h.2.1 ⟨hc, hg⟩

/-! ### Places -/

def Located.move (f : Text → Text) (x : Located) : Located :=
  ⟨f x.place, x.lexeme⟩

def Ending.move (f : Text → Text) : Ending → Ending
  | complete => complete
  | fault place e => fault (f place) e

/-- The lexemes of a text and how they end, wherever they stand. -/
def outline (t : Text) : List Located × Ending :=
  ((lex t).1.map (Located.move fun _ => []), (lex t).2.move fun _ => [])

theorem outline_of_blank (hb : Text.isBlank c = true) : outline (c :: t) = outline t := by
  rw [outline, lex_of_blank hb]
  rfl

theorem outline_of_spelled (h : Spelled c w l t) :
    outline (c :: (w ++ t)) = (⟨[], l⟩ :: (outline t).1, (outline t).2) := by
  rw [outline, h.lex_append]
  rfl

theorem outline_of_error {e : LexicalError} (hb : Text.isBlank c = false)
    (he : lexeme c t = .error e) : outline (c :: t) = ([], .fault [] e) := by
  rw [outline, lex_of_error hb he]
  rfl

/-- Blanks between lexemes leave them as they are. -/
theorem Respaced.outline_eq (h : Respaced t t') : outline t' = outline t := by
  induction h with
  | same => rfl
  | insert hb h ih => rwa [outline_of_blank hb]
  | blank hb h ih => rw [outline_of_blank hb, outline_of_blank hb, ih]
  | lexeme hl h ih =>
    rw [outline_of_spelled hl, outline_of_spelled (hl.of_follows h.follows), ih]
  | @digits c w t t' hw ht h ih =>
    obtain ⟨hc, hw⟩ := List.forall_mem_cons.1 hw
    have ht' := h.follows.stops (fun _ => isDigit_of_isBlank) ht
    cases hn : Text.bound? (c :: w) with
    | some n =>
      rw [outline_of_spelled (.number hc hw hn ht), outline_of_spelled (.number hc hw hn ht'), ih]
    | none =>
      have hb : Text.isBlank c = false := Bool.eq_false_iff.2 fun hb => by
        simp [isDigit_of_isBlank hb] at hc
      rw [outline_of_error hb (e := .invalidNumber), outline_of_error hb (e := .invalidNumber)]
      · rw [lexeme_digit hc, (ht.takeWhile_append hw).1, hn]
      · rw [lexeme_digit hc, (ht'.takeWhile_append hw).1, hn]
  | unexpected hb he h ih =>
    rw [outline_of_error hb he, outline_of_error hb (lexeme_unexpected he h.follows)]

/-! ### The reader and places -/

namespace State

def move (f : Text → Text) : State → State
  | namePart ns cs place t => namePart ns cs (f place) t
  | nameEnd ns cs place t => nameEnd ns cs (f place) t
  | s => s

variable (f : Text → Text)

def moveResult : Except (ReadError Text) State → Except (ReadError Text) State
  | .ok s => .ok (s.move f)
  | .error e => .error (e.map f)

theorem stepEnd_move (cs : List Call) (place : Text) (ns : Nesting) (l : Lexeme) :
    stepEnd cs (f place) ns l = moveResult f (stepEnd cs place ns l) := by
  rcases ns with _ | ⟨⟨_ | _, oc⟩, ns⟩ <;> cases l <;> rfl

theorem stepOpen_move (ns : Nesting) (cs : List Call) (place name : Text) :
    stepOpen ns cs (f place) name = moveResult f (stepOpen ns cs place name) := by
  unfold stepOpen
  split_ifs
  · rfl
  · rfl
  · cases Operation.ofName? name <;> rfl

theorem stepArgument_move (ns : Nesting) (oc : OpenCall) (place : Text)
    (body : Option (List Call)) (l : Lexeme) :
    stepArgument ns oc (f place) body l = moveResult f (stepArgument ns oc place body l) := by
  cases body <;> cases l <;> rfl

/-- A step uses the place for nothing but the place of a name or of an error. -/
theorem step_move (s : State) (place : Text) (l : Lexeme) :
    (s.move f).step (f place) l = moveResult f (s.step place l) := by
  cases s with
  | root ns =>
    rcases ns with _ | ⟨⟨_ | _, oc⟩, ns⟩ <;> cases l <;> try rfl
    -- Only in braces is there a name, `return`, that is no root.
    simp only [move, step]
    split_ifs <;> rfl
  | calls ns cs => cases l <;> first | rfl | exact stepEnd_move f cs place ns _
  | nameEnd ns cs first t => cases l <;> first | rfl | exact stepOpen_move f ns cs first t
  | argument ns oc body => exact stepArgument_move f ns oc place body l
  | _ => cases l <;> rfl

theorem run_move (s : State) (ls : List Located) :
    (s.move f).run (ls.map (Located.move f)) = moveResult f (s.run ls) := by
  induction ls generalizing s with
  | nil => rfl
  | cons x xs ih =>
    have hs : (s.move f).step (x.move f).place (x.move f).lexeme =
        moveResult f (s.step x.place x.lexeme) := step_move f s x.place x.lexeme
    rw [List.map_cons, run_cons, run_cons, hs]
    cases s.step x.place x.lexeme with
    | ok s' => exact ih s'
    | error e => rfl

theorem finish_move (s : State) : (s.move f).finish = s.finish := by
  cases s <;> rfl

end State

/-- Lexemes at other places are the same chain, or the same error at another place. -/
theorem ofLexemes_move {f : Text → Text} (hf : f [] = []) (ls : List Located) (ending : Ending) :
    ofLexemes (ls.map (Located.move f)) (ending.move f) =
      (ofLexemes ls ending).mapError (·.map f) := by
  have hr : State.start.run (ls.map (Located.move f)) = State.moveResult f (State.start.run ls) :=
    State.run_move f .start ls
  rw [ofLexemes, ofLexemes, hr]
  cases State.start.run ls with
  | error e => rfl
  | ok s =>
    cases ending with
    | fault place e => cases e <;> rfl
    | complete =>
      change (s.move f).finish.mapError _ = (s.finish.mapError _).mapError _
      rw [State.finish_move]
      cases s.finish with
      | ok chain => rfl
      | error what =>
        change Except.error (ReadError.expected what []) = Except.error (.expected what (f []))
        rw [hf]

/-- What reading a text gives but for the place of an error. -/
def outcome (t : Text) : Except (ReadError Unit) Chain :=
  (read t).mapError (·.map fun _ => ())

theorem outcome_eq (t : Text) :
    outcome t = (ofLexemes (outline t).1 (outline t).2).mapError (·.map fun _ => ()) := by
  rw [outline, ofLexemes_move rfl, outcome, read]
  rcases ofLexemes (lex t).1 (lex t).2 with e | chain
  · cases e <;> rfl
  · rfl

theorem Respaced.outcome_eq (h : Respaced t t') : outcome t' = outcome t := by
  rw [Chain.outcome_eq, Chain.outcome_eq, h.outline_eq]

/-- Blanks between lexemes change neither whether a text reads as a chain nor as which. -/
theorem read_eq_ok_iff_of_respaced (h : Respaced t t') (chain : Chain) :
    read t' = .ok chain ↔ read t = .ok chain := by
  have := h.outcome_eq
  rw [outcome, outcome] at this
  rw [← mapError_eq_ok_iff, this, mapError_eq_ok_iff]

/-- A space, a no-break space, an ideographic space and a line feed between the lexemes of a
call. -/
theorem read_eq_ok_iff_of_respaced_call :
    Respaced "e.any()".toList "\u3000e .\u00A0any(\n)".toList ∧
      ∀ chain, read "\u3000e .\u00A0any(\n)".toList = .ok chain ↔
        read "e.any()".toList = .ok chain := by
  have he : Spelled 'e' [] (.name ['e']) ['.', 'a', 'n', 'y', '(', ')'] :=
    .name rfl rfl (by simp) (stops_cons.2 rfl)
  have hany : Spelled 'a' ['n', 'y'] (.name ['a', 'n', 'y']) ['(', ')'] := by
    have hw : ['n', 'y'].all Char.isAlpha = true := by decide
    exact .name rfl rfl (fun d hd => isNamePart_of_isAlpha (List.all_eq_true.1 hw d hd))
      (stops_cons.2 rfl)
  have h : Respaced ['e', '.', 'a', 'n', 'y', '(', ')']
      ['\u3000', 'e', ' ', '.', '\u00A0', 'a', 'n', 'y', '(', '\n', ')'] := by
    refine .insert rfl (.lexeme he (.insert rfl ?_))
    refine .lexeme (w := []) (.punctuation rfl) (.insert rfl (.lexeme hany ?_))
    refine .lexeme (w := []) (.punctuation rfl) (.insert rfl ?_)
    exact .lexeme (w := []) (.punctuation rfl) (.same [])
  have e : "e.any()".toList = ['e', '.', 'a', 'n', 'y', '(', ')'] := by decide
  have e' : "\u3000e .\u00A0any(\n)".toList =
      ['\u3000', 'e', ' ', '.', '\u00A0', 'a', 'n', 'y', '(', '\n', ')'] := by decide
  rw [e, e']
  exact ⟨h, read_eq_ok_iff_of_respaced h⟩

end FluentRegex.Chain
