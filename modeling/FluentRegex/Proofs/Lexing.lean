import FluentRegex.Chain.Lexeme

/-!
The lexemes of a text that is put together from pieces. Each piece adds its own lexemes in front of
those of the text after it, as long as that text cannot be taken for more of the piece.
-/

namespace FluentRegex.Chain

/-- The text consists of exactly these lexemes, with blanks between them. -/
def Lexes (t : Text) (ls : List Lexeme) : Prop :=
  (lex t).1.map Located.lexeme = ls ∧ (lex t).2 = .complete

variable {t rest : Text} {ls : List Lexeme}

theorem lexes_nil : Lexes [] [] := by
  simp [Lexes]

theorem Lexes.of_blank {c : Char} (hc : Text.isBlank c = true) (h : Lexes t ls) :
    Lexes (c :: t) ls := by
  rwa [Lexes, lex_of_blank hc]

theorem Lexes.of_blanks {bs : Text} (hb : ∀ c ∈ bs, Text.isBlank c = true) (h : Lexes t ls) :
    Lexes (bs ++ t) ls := by
  induction bs with
  | nil => exact h
  | cons c bs ih => exact (ih fun d hd => hb d (by simp [hd])).of_blank (hb c (by simp))

theorem Lexes.of_lexeme {c : Char} {l : Lexeme} (hb : Text.isBlank c = false)
    (hl : lexeme c t = .ok (l, rest)) (h : Lexes rest ls) : Lexes (c :: t) (l :: ls) := by
  rw [Lexes, lex_of_lexeme hb hl]
  exact ⟨by rw [List.map_cons, h.1], h.2⟩

/-! ### Punctuation -/

theorem isBlank_of_punctuation {c : Char} {l : Lexeme} (h : punctuation? c = some l) :
    Text.isBlank c = false := by
  unfold punctuation? at h
  split at h <;> first | rfl | cases h

theorem Lexes.punctuation {c : Char} {l : Lexeme} (hp : punctuation? c = some l)
    (h : Lexes t ls) : Lexes (c :: t) (l :: ls) := by
  refine h.of_lexeme (isBlank_of_punctuation hp) ?_
  rw [lexeme, hp]

theorem Lexes.arrow (h : Lexes t ls) : Lexes ('=' :: '>' :: t) (.arrow :: ls) :=
  h.of_lexeme rfl rfl

/-! ### Quoted texts -/

theorem Lexes.quoted (s : Text) (h : Lexes t ls) :
    Lexes (Chain.quoted s ++ t) (.text s :: ls) := by
  have hq : lexeme '"' (s.flatMap quotedChar ++ '"' :: t) = .ok (.text s, t) := by
    have hp : punctuation? '"' = none := rfl
    rw [lexeme, hp]
    simp [isQuote, takeQuoted?_quoted]
  simpa [Chain.quoted] using h.of_lexeme rfl hq

/-! ### Numbers -/

theorem toNat_bounds_of_isDigit {c : Char} (h : c.isDigit = true) :
    48 ≤ c.toNat ∧ c.toNat ≤ 57 := by
  simpa [Char.isDigit, UInt32.le_iff_toNat_le] using h

theorem ne_of_isDigit {c d : Char} (h : c.isDigit = true) (hd : d.isDigit = false) : c ≠ d := by
  rintro rfl
  simp [h] at hd

theorem punctuation?_eq_none {c : Char} (h : c ∉ ['.', ',', '(', ')', '{', '}', ';']) :
    punctuation? c = none := by
  unfold punctuation?
  split <;> simp_all

theorem Lexes.numeral (n : UInt32) (ht : t.head?.all (!·.isDigit) = true) (h : Lexes t ls) :
    Lexes (Text.numeral n.toNat ++ t) (.number n :: ls) := by
  obtain ⟨d, ds, hn⟩ := List.exists_cons_of_ne_nil (Text.numeral_ne_nil n.toNat)
  have hmem : ∀ c ∈ d :: ds, c.isDigit = true := fun c hc =>
    Text.isDigit_of_mem_numeral (n := n.toNat) (hn ▸ hc)
  have hd := hmem d (by simp)
  have hds : ∀ c ∈ ds, c.isDigit = true := fun c hc => hmem c (by simp [hc])
  have hstop : t.takeWhile Char.isDigit = [] ∧ t.dropWhile Char.isDigit = t := by
    cases t with
    | nil => simp
    | cons c t => simp_all
  have hblank : Text.isBlank d = false := by
    have := toNat_bounds_of_isDigit hd
    simp [Text.isBlank]
    omega
  have hquote : isQuote d = false := by
    simp [isQuote, ne_of_isDigit hd]
  rw [hn, List.cons_append]
  refine h.of_lexeme hblank ?_
  rw [lexeme, punctuation?_eq_none (by simp [ne_of_isDigit hd])]
  simp [ne_of_isDigit hd, hquote, hd, List.takeWhile_append_of_pos hds,
    List.dropWhile_append_of_pos hds, hstop, ← hn, Text.bound?_numeral]

/-! ### Names -/

theorem toNat_bounds_of_isAlpha {c : Char} (h : c.isAlpha = true) :
    65 ≤ c.toNat ∧ c.toNat ≤ 122 := by
  have hn : c.toNat = c.val.toNat := rfl
  rcases (Bool.or_eq_true _ _).mp h with hu | hl
  · have hb : 'A'.val ≤ c.val ∧ c.val ≤ 'Z'.val := of_decide_eq_true hu
    simp only [UInt32.le_iff_toNat_le] at hb
    have hA : 'A'.val.toNat = 65 := rfl
    have hZ : 'Z'.val.toNat = 90 := rfl
    omega
  · obtain ⟨hlow, hhigh⟩ := (Bool.and_eq_true _ _).mp hl
    have hb := And.intro (of_decide_eq_true hlow) (of_decide_eq_true hhigh)
    simp only [ge_iff_le, UInt32.le_iff_toNat_le] at hb
    have ha : 'a'.val.toNat = 97 := rfl
    have hz : 'z'.val.toNat = 122 := rfl
    omega

theorem ne_of_isAlpha {c d : Char} (h : c.isAlpha = true) (hd : d.isAlpha = false) : c ≠ d := by
  rintro rfl
  simp [h] at hd

theorem isNameStart_of_isAlpha {c : Char} (h : c.isAlpha = true) : isNameStart c = true := by
  have := toNat_bounds_of_isAlpha h
  simp [isNameStart, Text.isAlphabetic_of_ascii (show c.toNat < 0x80 by omega), h]

theorem isNamePart_of_isAlpha {c : Char} (h : c.isAlpha = true) : isNamePart c = true := by
  simp [isNamePart, isNameStart_of_isAlpha h]

/-- A name of ASCII letters, before a text that does not go on with it. -/
theorem Lexes.name {n : Text} (hn : n ≠ []) (ha : n.all Char.isAlpha = true)
    (ht : t.head?.all (!isNamePart ·) = true) (h : Lexes t ls) :
    Lexes (n ++ t) (.name n :: ls) := by
  obtain ⟨c, cs, rfl⟩ := List.exists_cons_of_ne_nil hn
  have hmem : ∀ d ∈ c :: cs, d.isAlpha = true := List.all_eq_true.1 ha
  have hc := hmem c (by simp)
  have hcs : ∀ d ∈ cs, isNamePart d = true := fun d hd =>
    isNamePart_of_isAlpha (hmem d (by simp [hd]))
  have hstop : t.takeWhile isNamePart = [] ∧ t.dropWhile isNamePart = t := by
    cases t with
    | nil => simp
    | cons c t => simp_all
  have hbounds := toNat_bounds_of_isAlpha hc
  have hblank : Text.isBlank c = false := by
    simp [Text.isBlank]
    omega
  have hquote : isQuote c = false := by
    simp only [isQuote, Bool.or_eq_false_iff, beq_eq_false_iff_ne]
    exact ⟨⟨ne_of_isAlpha hc rfl, ne_of_isAlpha hc rfl⟩, ne_of_isAlpha hc rfl⟩
  have hdigit : c.isDigit = false := Bool.eq_false_iff.2 fun hd => by
    have := toNat_bounds_of_isDigit hd
    omega
  rw [List.cons_append]
  refine h.of_lexeme hblank ?_
  rw [lexeme, punctuation?_eq_none (by simp [ne_of_isAlpha hc])]
  simp [ne_of_isAlpha hc, hquote, hdigit, isNameStart_of_isAlpha hc,
    List.takeWhile_append_of_pos hcs, List.dropWhile_append_of_pos hcs, hstop]

end FluentRegex.Chain
