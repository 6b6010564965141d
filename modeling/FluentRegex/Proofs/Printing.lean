import FluentRegex.Chain.Print
import FluentRegex.Proofs.Lexing

/-!
The lexemes of a printed chain, by recursion over its calls. The name of an operation may have a dot
in it and is then three lexemes; every other piece of a call is a lexeme of its own.
-/

namespace FluentRegex

namespace Chain

/-- The lexemes of a name with dots in it, when `part` has been read of its current part. -/
def nameLexemes (part : Text) : Text → List Lexeme
  | [] => [.name part]
  | c :: rest =>
    if c = '.' then .name part :: .dot :: nameLexemes [] rest else nameLexemes (part ++ [c]) rest

end Chain

def Argument.lexeme : Argument → Chain.Lexeme
  | number n => .number n
  | text t => .text t

def Operation.lexemes (o : Operation) : List Chain.Lexeme :=
  Chain.nameLexemes [] o.name

def Argument.lexemes (args : List Argument) : List Chain.Lexeme :=
  (args.map lexeme).intersperse .comma

mutual

/-- The lexemes of a call, without the dot before it. -/
def Call.lexemes : Call → List Chain.Lexeme
  | .plain o args => o.lexemes ++ .leftParen :: (Argument.lexemes args ++ [.rightParen])
  | .callback o _ body =>
    o.lexemes ++ .leftParen :: .leftParen :: .name Chain.root :: .rightParen :: .arrow ::
      .leftBrace :: .name Chain.root :: (Chain.callsLexemes body ++ [.rightBrace, .rightParen])

def Chain.callsLexemes : List Call → List Chain.Lexeme
  | [] => []
  | c :: cs => .dot :: (c.lexemes ++ Chain.callsLexemes cs)

end

namespace Chain

def doneLexemes : Option Text → List Lexeme
  | none => []
  | some flags => [.dot, .name "done".toList, .leftParen, .text flags, .rightParen]

def lexemes (c : Chain) : List Lexeme :=
  .name root :: (callsLexemes c.calls ++ doneLexemes c.flags)

theorem bodyOpening_eq :
    bodyOpening = '(' :: (root ++ [')', ' ', '=', '>', ' ', '{', ' '] ++ root) := rfl

theorem bodyClosing_eq : bodyClosing = [' ', '}'] := rfl

/-! ### Names of operations -/

theorem nameLexemes_letters (part : Text) {n : Text} (h : n.all Char.isAlpha = true) :
    nameLexemes part n = [.name (part ++ n)] := by
  induction n generalizing part with
  | nil => simp [nameLexemes]
  | cons c n ih =>
    simp only [List.all_cons, Bool.and_eq_true] at h
    rw [nameLexemes, if_neg (ne_of_isAlpha h.1 rfl), ih _ h.2]
    simp

theorem nameLexemes_dotted (part : Text) {m n : Text} (hm : m.all Char.isAlpha = true)
    (hn : n.all Char.isAlpha = true) :
    nameLexemes part (m ++ '.' :: n) = [.name (part ++ m), .dot, .name n] := by
  induction m generalizing part with
  | nil => simp [nameLexemes, nameLexemes_letters [] hn]
  | cons c m ih =>
    simp only [List.all_cons, Bool.and_eq_true] at hm
    rw [List.cons_append, nameLexemes, if_neg (ne_of_isAlpha hm.1 rfl), ih _ hm.2]
    simp

end Chain

/-- The name of an operation is letters, or two runs of letters around a dot. -/
theorem Operation.name_letters_or_dotted (o : Operation) :
    (o.name ≠ [] ∧ o.name.all Char.isAlpha = true) ∨
      ∃ m n : Text, o.name = m ++ '.' :: n ∧ (m ≠ [] ∧ m.all Char.isAlpha = true) ∧
        n ≠ [] ∧ n.all Char.isAlpha = true := by
  rcases o with k | _ | _ | e
  · left; cases k <;> decide
  · left; decide
  · left; decide
  · rcases e with g | b
    · cases g with
      | capturing => left; decide
      | lookahead => exact .inr ⟨"look".toList, "ahead".toList, by decide⟩
      | negativeLookahead => exact .inr ⟨"negativeLook".toList, "ahead".toList, by decide⟩
      | lookbehind => exact .inr ⟨"look".toList, "behind".toList, by decide⟩
      | negativeLookbehind => exact .inr ⟨"negativeLook".toList, "behind".toList, by decide⟩
    · left; cases b <;> decide

/-- The lexemes of an operation's name are the name, or its two parts around a dot. -/
theorem Operation.lexemes_cases (o : Operation) :
    o.lexemes = [.name o.name] ∨
      ∃ m n : Text, o.name = m ++ '.' :: n ∧ o.lexemes = [.name m, .dot, .name n] := by
  rcases o.name_letters_or_dotted with ⟨-, h⟩ | ⟨m, n, e, ⟨-, hm⟩, -, hn⟩
  · exact .inl (Chain.nameLexemes_letters [] h)
  · exact .inr ⟨m, n, e, by rw [Operation.lexemes, e, Chain.nameLexemes_dotted [] hm hn]; rfl⟩

namespace Chain

variable {t : Text} {ls : List Lexeme}

theorem lexes_operation (o : Operation) (ht : t.head?.all (!isNamePart ·) = true)
    (h : Lexes t ls) : Lexes (o.name ++ t) (o.lexemes ++ ls) := by
  rcases o.name_letters_or_dotted with ⟨hne, ha⟩ | ⟨m, n, e, ⟨hme, hm⟩, hne, hn⟩
  · rw [Operation.lexemes, nameLexemes_letters [] ha]
    exact h.name hne ha ht
  · rw [Operation.lexemes, e, nameLexemes_dotted [] hm hn, List.append_assoc]
    exact ((h.name hne hn ht).punctuation (c := '.') rfl).name hme hm rfl

/-! ### Arguments -/

theorem lexes_argument (a : Argument) (ht : t.head?.all (!·.isDigit) = true) (h : Lexes t ls) :
    Lexes (a.print ++ t) (a.lexeme :: ls) := by
  cases a with
  | number n => exact h.numeral n ht
  | text s => exact h.quoted s

theorem lexes_arguments (args : List Argument) (h : Lexes t ls) :
    Lexes (Text.join [',', ' '] (args.map Argument.print) ++ ')' :: t)
      (Argument.lexemes args ++ .rightParen :: ls) := by
  have hp : Lexes (')' :: t) (.rightParen :: ls) := h.punctuation rfl
  induction args with
  | nil => exact hp
  | cons a args ih =>
    cases args with
    | nil => exact lexes_argument a rfl hp
    | cons b args =>
      have hc := (Lexes.of_blank (c := ' ') rfl ih).punctuation (c := ',') rfl
      have := lexes_argument a rfl hc
      simpa [Text.join, Argument.lexemes] using this

/-! ### Calls -/

/-- What follows the name of the builder does not go on with it. -/
theorem head?_printCalls (cs : List Call) (ht : t.head?.all (!isNamePart ·) = true) :
    (printCalls cs ++ t).head?.all (!isNamePart ·) = true := by
  cases cs with
  | nil => simpa [printCalls] using ht
  | cons c cs => rfl

theorem lexes_root (ht : t.head?.all (!isNamePart ·) = true) (h : Lexes t ls) :
    Lexes (root ++ t) (.name root :: ls) :=
  h.name (by decide) (by decide) ht

theorem lexes_bodyOpening {cs : List Call} (h : Lexes (printCalls cs ++ bodyClosing ++ t) ls) :
    Lexes (bodyOpening ++ printCalls cs ++ bodyClosing ++ t)
      (.leftParen :: .name root :: .rightParen :: .arrow :: .leftBrace :: .name root :: ls) := by
  have hh : (printCalls cs ++ bodyClosing ++ t).head?.all (!isNamePart ·) = true := by
    rw [List.append_assoc, bodyClosing_eq]
    exact head?_printCalls cs rfl
  have h₁ := Lexes.of_blank (c := ' ') rfl (lexes_root hh h)
  have h₂ := Lexes.of_blank (c := ' ') rfl (h₁.punctuation (c := '{') rfl)
  have h₃ := Lexes.of_blank (c := ' ') rfl h₂.arrow
  have h₄ := (lexes_root (by rfl) (h₃.punctuation (c := ')') rfl)).punctuation (c := '(') rfl
  simpa [bodyOpening_eq] using h₄

mutual

theorem lexes_call : (c : Call) → {t : Text} → {ls : List Lexeme} → Lexes t ls →
    Lexes (c.print ++ t) (c.lexemes ++ ls)
  | .plain o args, t, ls, h => by
    have := lexes_operation o rfl ((lexes_arguments args h).punctuation (c := '(') rfl)
    simpa [Call.print, Call.lexemes] using this
  | .callback o args body, t, ls, h => by
    have hc : Lexes (bodyClosing ++ ')' :: t) (.rightBrace :: .rightParen :: ls) :=
      .of_blank (c := ' ') rfl ((h.punctuation (c := ')') rfl).punctuation (c := '}') rfl)
    have hb := lexes_calls body hc
    rw [← List.append_assoc] at hb
    have := lexes_operation o rfl ((lexes_bodyOpening hb).punctuation (c := '(') rfl)
    simpa [Call.print, Call.lexemes] using this

theorem lexes_calls : (cs : List Call) → {t : Text} → {ls : List Lexeme} → Lexes t ls →
    Lexes (printCalls cs ++ t) (callsLexemes cs ++ ls)
  | [], t, ls, h => by simpa [printCalls, callsLexemes] using h
  | c :: cs, t, ls, h => by
    have := (lexes_call c (lexes_calls cs h)).punctuation (c := '.') rfl
    simpa [printCalls, callsLexemes] using this

end

theorem lexes_done (flags : Text) (h : Lexes t ls) :
    Lexes ('.' :: printDone flags ++ t) (doneLexemes (some flags) ++ ls) := by
  have h₁ := ((h.punctuation (c := ')') rfl).quoted flags).punctuation (c := '(') rfl
  have h₂ := (h₁.name (n := "done".toList) (by decide) (by decide) rfl).punctuation (c := '.') rfl
  simpa [printDone, doneLexemes] using h₂

theorem lexes_print (c : Chain) : Lexes c.print c.lexemes := by
  obtain ⟨cs, flags⟩ := c
  cases flags with
  | none =>
    have := lexes_root (head?_printCalls cs rfl) (lexes_calls cs lexes_nil)
    simpa [print, lexemes, doneLexemes] using this
  | some flags =>
    have := lexes_root (head?_printCalls cs rfl) (lexes_calls cs (lexes_done flags lexes_nil))
    simpa [print, lexemes, doneLexemes] using this

end Chain

end FluentRegex
