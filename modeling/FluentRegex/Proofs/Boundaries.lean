import FluentRegex.Proofs.Lexing

/-!
Where a lexeme ends. A lexeme is read in the same way before any text that ends it as the old one
did, and a blank ends every lexeme. So a text can be cut at the end of a lexeme: what stands before
the cut has the lexemes that it had.
-/

namespace FluentRegex.Chain

/-! ### The kinds of lexemes -/

theorem isQuote_of_punctuation {c : Char} {l : Lexeme} (h : punctuation? c = some l) :
    isQuote c = false := by
  unfold punctuation? at h
  split at h <;> first | rfl | cases h

theorem isDigit_of_punctuation {c : Char} {l : Lexeme} (h : punctuation? c = some l) :
    c.isDigit = false := by
  unfold punctuation? at h
  split at h <;> first | rfl | cases h

theorem lexeme_quoted {c : Char} (hq : isQuote c = true) (t : Text) :
    lexeme c t =
      match takeQuoted? c t with
      | some (s, rest) => .ok (.text s, rest)
      | none => .error .unterminated := by
  simp only [isQuote, Bool.or_eq_true, beq_iff_eq] at hq
  rcases hq with (rfl | rfl) | rfl <;> rfl

theorem lexeme_digit {c : Char} (hd : c.isDigit = true) (t : Text) :
    lexeme c t =
      match Text.bound? (c :: t.takeWhile Char.isDigit) with
      | some n => .ok (.number n, t.dropWhile Char.isDigit)
      | none => .error .invalidNumber := by
  have hp : punctuation? c = none := punctuation?_eq_none (by simp [ne_of_isDigit hd])
  have hq : isQuote c = false := by simp [isQuote, ne_of_isDigit hd]
  cases hb : Text.bound? (c :: t.takeWhile Char.isDigit) <;>
    simp [lexeme, hp, hq, hd, hb, ne_of_isDigit hd]

/-- The characters that are lexemes of their own, start a lexeme of another kind than a name, or are
put between lexemes by the layout. -/
def separators : List Char :=
  ['.', ',', '(', ')', '{', '}', ';', '=', '"', '\'', '`', ' ', '\n']

theorem notMem_separators {c : Char} (h : isNamePart c = true) : c ∉ separators := by
  have hall : separators.all (!isNamePart ·) = true := by decide
  intro m
  simpa [h] using List.all_eq_true.1 hall c m

theorem lexeme_name {c : Char} (hd : c.isDigit = false) (hn : isNameStart c = true) (t : Text) :
    lexeme c t = .ok (.name (c :: t.takeWhile isNamePart), t.dropWhile isNamePart) := by
  have hm := notMem_separators (c := c) (by simp [isNamePart, hn])
  simp only [separators, List.mem_cons, List.not_mem_nil, or_false, not_or] at hm
  have hp : punctuation? c = none := punctuation?_eq_none (by simp [hm])
  have hq : isQuote c = false := by simp [isQuote, hm]
  simp [lexeme, hp, hq, hd, hn, hm]

theorem isNamePart_of_isDigit {c : Char} (h : c.isDigit = true) : isNamePart c = true := by
  have := toNat_bounds_of_isDigit h
  simp [isNamePart, Text.isNumeric_of_ascii (show c.toNat < 0x80 by omega), h]

/-! ### Blanks -/

def blankPoints : List Nat :=
  [0x09, 0x0A, 0x0B, 0x0C, 0x0D, 0x20, 0x85, 0xA0, 0x1680, 0x2000, 0x2001, 0x2002, 0x2003, 0x2004,
    0x2005, 0x2006, 0x2007, 0x2008, 0x2009, 0x200A, 0x2028, 0x2029, 0x202F, 0x205F, 0x3000]

theorem toNat_mem_blankPoints {c : Char} (h : Text.isBlank c = true) : c.toNat ∈ blankPoints := by
  simp only [Text.isBlank, Bool.or_eq_true, Bool.and_eq_true, decide_eq_true_eq, beq_iff_eq] at h
  simp only [blankPoints, List.mem_cons, List.not_mem_nil, or_false]
  omega

/-- No name goes on with a blank. -/
theorem isNamePart_of_isBlank {c : Char} (h : Text.isBlank c = true) : isNamePart c = false := by
  have hall : blankPoints.all (fun n => !isNamePart (Char.ofNat n)) = true := by decide +kernel
  have := List.all_eq_true.1 hall _ (toNat_mem_blankPoints h)
  rwa [Char.ofNat_toNat, Bool.not_eq_true'] at this

theorem isQuote_of_isBlank {c : Char} (h : Text.isBlank c = true) : isQuote c = false := by
  refine Bool.eq_false_iff.2 fun hq => ?_
  simp only [isQuote, Bool.or_eq_true, beq_iff_eq] at hq
  rcases hq with (rfl | rfl) | rfl <;> cases h

theorem isDigit_of_isBlank {c : Char} (h : Text.isBlank c = true) : c.isDigit = false :=
  Bool.eq_false_iff.2 fun hd => by simpa [isNamePart_of_isBlank h] using isNamePart_of_isDigit hd

/-! ### The text of a lexeme -/

variable {c d : Char} {t rest rest' w : Text} {l : Lexeme}

/-- A run of such characters cannot go on with the text. -/
def Stops (p : Char → Bool) (rest : Text) : Prop :=
  ∀ c, rest.head? = some c → p c = false

theorem stops_cons {p : Char → Bool} : Stops p (c :: rest) ↔ p c = false := by
  simp [Stops]

theorem stops_dropWhile (p : Char → Bool) (t : Text) : Stops p (t.dropWhile p) := by
  intro c hc
  have := List.head?_dropWhile_not p t
  rwa [hc] at this

theorem Stops.takeWhile_append {p : Char → Bool} (h : Stops p rest) (hw : ∀ d ∈ w, p d = true) :
    (w ++ rest).takeWhile p = w ∧ (w ++ rest).dropWhile p = rest := by
  have hr : rest.takeWhile p = [] ∧ rest.dropWhile p = rest := by
    cases rest with
    | nil => simp
    | cons c rest => simp [h c rfl]
  rw [List.takeWhile_append_of_pos hw, List.dropWhile_append_of_pos hw, hr.1, hr.2]
  simp

/-- The characters `c` and `w` are the lexeme before the rest of a text. -/
inductive Spelled : Char → Text → Lexeme → Text → Prop
  | punctuation {c : Char} {l : Lexeme} {rest : Text} (hp : punctuation? c = some l) :
      Spelled c [] l rest
  | arrow {rest : Text} : Spelled '=' ['>'] .arrow rest
  | quoted {c : Char} {w s rest : Text} (hq : isQuote c = true)
      (hs : ∀ rest, takeQuoted? c (w ++ c :: rest) = some (s, rest)) :
      Spelled c (w ++ [c]) (.text s) rest
  | number {c : Char} {w rest : Text} {n : UInt32} (hc : c.isDigit = true)
      (hw : ∀ d ∈ w, d.isDigit = true) (hn : Text.bound? (c :: w) = some n)
      (hr : Stops Char.isDigit rest) : Spelled c w (.number n) rest
  | name {c : Char} {w rest : Text} (hd : c.isDigit = false) (hc : isNameStart c = true)
      (hw : ∀ d ∈ w, isNamePart d = true) (hr : Stops isNamePart rest) :
      Spelled c w (.name (c :: w)) rest

/-- Quoted text ends in its quote, and is read in the same way whatever follows that. -/
theorem exists_of_takeQuoted? {quote : Char} (hq : quote ≠ '\\') {t s rest : Text}
    (h : takeQuoted? quote t = some (s, rest)) :
    ∃ w, t = w ++ quote :: rest ∧
      ∀ rest', takeQuoted? quote (w ++ quote :: rest') = some (s, rest') := by
  fun_induction takeQuoted? quote t generalizing s with
  | case1 => cases h
  | case2 c t ih =>
    simp only [Option.map_eq_some_iff, Prod.mk.injEq, Prod.exists] at h
    obtain ⟨s, _, h, rfl, rfl⟩ := h
    obtain ⟨w, rfl, ht⟩ := ih h
    exact ⟨'\\' :: c :: w, rfl, fun rest' => by simp [takeQuoted?, ht]⟩
  | case3 t hb =>
    cases h
    exact ⟨[], rfl, fun rest' => by simp [takeQuoted?, hq]⟩
  | case4 c t hb hc ih =>
    simp only [Option.map_eq_some_iff, Prod.mk.injEq, Prod.exists] at h
    obtain ⟨s, _, h, rfl, rfl⟩ := h
    obtain ⟨w, rfl, ht⟩ := ih h
    have hc' : c ≠ '\\' := by
      rintro rfl
      cases w <;> exact hb _ _ rfl rfl
    exact ⟨c :: w, rfl, fun rest' => by simp [takeQuoted?, hc', hc, ht]⟩

theorem ne_backslash_of_isQuote (h : isQuote c = true) : c ≠ '\\' := by
  rintro rfl
  cases h

/-- A lexeme that is read has its text. -/
theorem exists_spelled (h : lexeme c t = .ok (l, rest)) :
    ∃ w, t = w ++ rest ∧ Spelled c w l rest := by
  revert h
  fun_cases lexeme c t with
  | case1 k hp =>
    rintro ⟨⟩
    exact ⟨[], rfl, .punctuation hp⟩
  | case2 hp ha =>
    rintro ⟨⟩
    obtain ⟨rfl, hg⟩ := by simpa using ha
    obtain ⟨t, rfl⟩ := List.head?_eq_some_iff.1 hg
    exact ⟨['>'], rfl, .arrow⟩
  | case3 hp ha hq s r hs =>
    rintro ⟨⟩
    obtain ⟨w, rfl, hw⟩ := exists_of_takeQuoted? (ne_backslash_of_isQuote hq) hs
    exact ⟨w ++ [c], by simp, .quoted hq hw⟩
  | case5 hp ha hq hc n hn =>
    rintro ⟨⟩
    exact ⟨_, List.takeWhile_append_dropWhile.symm, .number hc
      (List.all_eq_true.1 List.all_takeWhile) hn (stops_dropWhile _ t)⟩
  | case7 hp ha hq hd hc =>
    rintro ⟨⟩
    exact ⟨_, List.takeWhile_append_dropWhile.symm, .name (Bool.eq_false_iff.2 hd) hc
      (List.all_eq_true.1 List.all_takeWhile) (stops_dropWhile _ t)⟩
  | _ => rintro ⟨⟩

/-- The text of a lexeme is read as that lexeme. -/
theorem Spelled.lexeme_append (h : Spelled c w l rest) : lexeme c (w ++ rest) = .ok (l, rest) := by
  cases h with
  | punctuation hp => simp [lexeme, hp]
  | arrow => rfl
  | quoted hq hs => rw [List.append_assoc, List.singleton_append, lexeme_quoted hq, hs]
  | number hc hw hn hr =>
    obtain ⟨ht, hd⟩ := hr.takeWhile_append hw
    rw [lexeme_digit hc, ht, hd, hn]
  | name hd hc hw hr =>
    obtain ⟨ht, hd'⟩ := hr.takeWhile_append hw
    rw [lexeme_name hd hc, ht, hd']

theorem Spelled.isBlank (h : Spelled c w l rest) : Text.isBlank c = false := by
  refine Bool.eq_false_iff.2 fun hb => ?_
  have hn := isNamePart_of_isBlank hb
  cases h with
  | punctuation hp => simp [isBlank_of_punctuation hp] at hb
  | arrow => cases hb
  | quoted hq => simp [isQuote_of_isBlank hb] at hq
  | number hc => simp [isNamePart_of_isDigit hc] at hn
  | name hd hc => simp [isNamePart, hc] at hn

theorem Spelled.lex_append (h : Spelled c w l rest) :
    lex (c :: (w ++ rest)) = (⟨c :: (w ++ rest), l⟩ :: (lex rest).1, (lex rest).2) :=
  lex_of_lexeme h.isBlank h.lexeme_append

/-! ### What may follow a lexeme -/

/-- The text `rest'` ends whatever lexeme the text `rest` ends: it is empty, or it starts with the
same character or with a blank. -/
def Follows (rest rest' : Text) : Prop :=
  ∀ c, rest'.head? = some c → Text.isBlank c = true ∨ rest.head? = some c

theorem Follows.stops {p : Char → Bool} (hf : Follows rest rest')
    (hp : ∀ c, Text.isBlank c = true → p c = false) (h : Stops p rest) : Stops p rest' :=
  fun c hc => (hf c hc).elim (hp c) (h c)

/-- A lexeme stays one before any text that ends it as the old one did. -/
theorem Spelled.of_follows (h : Spelled c w l rest) (hf : Follows rest rest') :
    Spelled c w l rest' := by
  cases h with
  | punctuation hp => exact .punctuation hp
  | arrow => exact .arrow
  | quoted hq hs => exact .quoted hq hs
  | number hc hw hn hr => exact .number hc hw hn (hf.stops (fun _ => isDigit_of_isBlank) hr)
  | name hd hc hw hr => exact .name hd hc hw (hf.stops (fun _ => isNamePart_of_isBlank) hr)

/-- No digit follows a lexeme that ends in one. -/
theorem Spelled.isDigit_getLast? (h : Spelled c w l rest) (hr : rest.head? = some d)
    (hd : d.isDigit = true) : ∀ e ∈ (c :: w).getLast?, e.isDigit = false := by
  cases h with
  | punctuation hp => simpa using isDigit_of_punctuation hp
  | arrow => simp
  | @quoted c w s rest hq hs =>
    have hc : c.isDigit = false := Bool.eq_false_iff.2 fun hc => by
      simp [isQuote, ne_of_isDigit hc] at hq
    simpa [List.getLast?_cons, List.getLast?_append] using hc
  | number hc hw hn hs =>
    have := hs d hr
    simp [hd] at this
  | name hd' hc hw hs =>
    have := hs d hr
    simp [isNamePart_of_isDigit hd] at this

/-! ### Cutting a text between lexemes -/

/-- Induction along a text by blanks and lexemes, up to where no lexeme can be read. -/
theorem lexInduction {P : Text → Prop} (nil : P [])
    (blank : ∀ c t, Text.isBlank c = true → P t → P (c :: t))
    (error : ∀ c t e, Text.isBlank c = false → lexeme c t = .error e → P (c :: t))
    (lexeme : ∀ c w l rest, Spelled c w l rest → P rest → P (c :: (w ++ rest))) (t : Text) :
    P t := by
  fun_induction lex t with
  | case1 => exact nil
  | case2 c t hb ih => exact blank c t hb ih
  | case3 c t hb e he => exact error c t e (Bool.eq_false_iff.2 hb) he
  | case4 c t hb l rest hl _ ls ending e ih =>
    obtain ⟨w, rfl, hw⟩ := exists_spelled hl
    exact lexeme c w l rest hw ih

/-- A text is cut into what stands before and the rest, where only blanks and whole lexemes of it
stand before. -/
inductive Boundary : Text → Text → Prop
  | start (rest : Text) : Boundary [] rest
  | blank {c : Char} {before rest : Text} (hb : Text.isBlank c = true) (h : Boundary before rest) :
      Boundary (c :: before) rest
  | lexeme {c : Char} {w before rest : Text} {l : Lexeme} (hl : Spelled c w l (before ++ rest))
      (h : Boundary before rest) : Boundary (c :: (w ++ before)) rest

/-- What stands before a boundary is blanks and lexemes on its own. -/
theorem Boundary.complete {before rest : Text} (h : Boundary before rest) :
    (lex before).2 = .complete := by
  induction h with
  | start => rw [lex_nil]
  | blank hb _ ih => rwa [lex_of_blank hb]
  | @lexeme c w before rest l hl _ ih =>
    have hf : Follows (before ++ rest) before := fun d hd => .inr (by simp [List.head?_append, hd])
    rwa [(hl.of_follows hf).lex_append]

/-- A boundary does not cut a run of digits. -/
theorem Boundary.isDigit_getLast? {before rest : Text} {d : Char} (h : Boundary before rest)
    (hr : rest.head? = some d) (hd : d.isDigit = true) :
    ∀ e ∈ before.getLast?, e.isDigit = false := by
  induction h with
  | start => simp
  | @blank c before rest hb h ih =>
    cases before with
    | nil => simpa using isDigit_of_isBlank hb
    | cons => simpa using ih hr
  | @lexeme c w before rest l hl h ih =>
    cases before with
    | nil =>
      rw [List.append_nil]
      exact hl.isDigit_getLast? hr hd
    | cons b before =>
      simpa [List.getLast?_cons, List.getLast?_append] using ih hr

def Ending.place : Ending → Text
  | complete => []
  | fault place _ => place

/-- The places of the lexemes of a text, and the place where they end. -/
def places (t : Text) : List Text :=
  (lex t).1.map Located.place ++ [(lex t).2.place]

/-- Every place is a boundary. -/
theorem exists_boundary {place : Text} (h : place ∈ places t) :
    ∃ before, t = before ++ place ∧ Boundary before place := by
  induction t using lexInduction with
  | nil =>
    obtain rfl : place = [] := by simpa [places, Ending.place] using h
    exact ⟨[], rfl, .start _⟩
  | blank c t hb ih =>
    rw [places, lex_of_blank hb] at h
    obtain ⟨before, rfl, hbd⟩ := ih h
    exact ⟨c :: before, rfl, hbd.blank hb⟩
  | error c t e hb he =>
    obtain rfl : place = c :: t := by simpa [places, lex_of_error hb he, Ending.place] using h
    exact ⟨[], rfl, .start _⟩
  | lexeme c w l rest hl ih =>
    rw [places, hl.lex_append] at h
    rcases List.mem_cons.1 h with rfl | h
    · exact ⟨[], rfl, .start _⟩
    · obtain ⟨before, rfl, hbd⟩ := ih h
      exact ⟨c :: (w ++ before), by simp, hbd.lexeme hl⟩

end FluentRegex.Chain
