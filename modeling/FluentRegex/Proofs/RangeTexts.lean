import FluentRegex.Proofs.Bounds
import FluentRegex.Proofs.Lexing
import Mathlib.Data.List.Induction

/-!
The texts of ranges. A range is read unit by unit, and it can also be found in the text: up to the
first closing brace, and cut at the first comma. Both read the same texts, in which numbers may
start with zeros, and take them whole. What a quantifier writes is the one of its texts without such
zeros, and its arguments are its bounds again, so the three forms of a quantifier say the same.
-/

namespace FluentRegex

open Chain (ne_of_isDigit toNat_bounds_of_isDigit)

namespace Text

variable {t ds : Text} {c d : Char} {n : UInt32}

/-! ### Leading zeros -/

/-- The text without the leading zeros of its numbers: a zero is left out where no digit stands
before it and another one follows. -/
def withoutZeros (inNumber : Bool) : Text → Text
  | [] => []
  | c :: rest =>
    if !inNumber && c == '0' && rest.head?.any Char.isDigit then withoutZeros false rest
    else c :: withoutZeros c.isDigit rest

theorem digitChar_of_isDigit (h : c.isDigit = true) : (c.toNat - '0'.toNat).digitChar = c := by
  have hall : ∀ n < 10, n.digitChar = Char.ofNat (n + 48) := by decide
  have hb := toNat_bounds_of_isDigit h
  have hz : '0'.toNat = 48 := rfl
  rw [hz, hall _ (by omega), show c.toNat - 48 + 48 = c.toNat by omega, Char.ofNat_toNat]

theorem numeralValue_concat (ds : Text) (c : Char) :
    numeralValue (ds ++ [c]) = 10 * numeralValue ds + (c.toNat - '0'.toNat) := by
  rw [numeralValue, Nat.ofDigitChars_append, Nat.ofDigitChars_cons, Nat.ofDigitChars_nil,
    numeralValue]

theorem numeral_digit (h : c.isDigit = true) : numeral (c.toNat - '0'.toNat) = [c] := by
  have hb := toNat_bounds_of_isDigit h
  have hz : '0'.toNat = 48 := rfl
  rw [numeral, Nat.toDigits_of_lt_base (by omega), digitChar_of_isDigit h]

theorem numeralValue_zero_cons (ds : Text) : numeralValue ('0' :: ds) = numeralValue ds := by
  rw [numeralValue, Nat.ofDigitChars_cons]
  rfl

/-- Digits of which the first is no zero are the numeral of their value. -/
theorem numeral_numeralValue (hd : d ≠ '0') (h : ∀ c ∈ d :: ds, c.isDigit = true) :
    numeral (numeralValue (d :: ds)) = d :: ds := by
  -- The first digit has to stay, so digits are taken off the end.
  induction ds using List.reverseRecOn with
  | nil =>
    have hv : numeralValue [d] = d.toNat - '0'.toNat := by
      have := numeralValue_concat [] d
      rwa [show 10 * numeralValue [] = 0 from rfl, Nat.zero_add] at this
    rw [hv]
    exact numeral_digit (h d (by simp))
  | append_singleton ds c ih =>
    have ih := ih fun e he => h e (by simp at he ⊢; tauto)
    have hc : c.isDigit = true := h c (by simp)
    have hpos : 0 < numeralValue (d :: ds) := by
      refine Nat.pos_of_ne_zero fun hz => hd ?_
      rw [hz] at ih
      exact (List.cons.inj ih).1.symm
    have hb := toNat_bounds_of_isDigit hc
    have hz : '0'.toNat = 48 := rfl
    have happ := Nat.toDigits_append_toDigits (b := 10) (d := c.toNat - '0'.toNat) (by decide)
      hpos (by omega)
    rw [← List.cons_append, numeralValue_concat, numeral, ← happ]
    exact congrArg₂ (· ++ ·) ih (numeral_digit hc)

theorem withoutZeros_zero (hc : c.isDigit = true) (t : Text) :
    withoutZeros false ('0' :: c :: t) = withoutZeros false (c :: t) := by
  rw [withoutZeros, if_pos (by simp [hc])]

theorem withoutZeros_kept (h : d ≠ '0' ∨ t.head?.any Char.isDigit = false) (inNumber : Bool) :
    withoutZeros inNumber (d :: t) = d :: withoutZeros d.isDigit t := by
  rw [withoutZeros, if_neg]
  rcases h with h | h <;> simp [h]

theorem withoutZeros_nondigit (hc : c.isDigit = false) (inNumber : Bool) (t : Text) :
    withoutZeros inNumber (c :: t) = c :: withoutZeros false t := by
  rw [withoutZeros_kept (.inl ?_), hc]
  rintro rfl
  cases hc

/-- Inside of a number every digit stays. -/
theorem withoutZeros_append (h : ∀ c ∈ ds, c.isDigit = true) (t : Text) :
    withoutZeros true (ds ++ t) = ds ++ withoutZeros true t := by
  induction ds with
  | nil => rfl
  | cons d ds ih =>
    simp [withoutZeros, h d (by simp), ih fun e he => h e (by simp [he])]

theorem withoutZeros_digits (h : ∀ c ∈ ds, c.isDigit = true) (hne : ds ≠ [])
    (hc : c.isDigit = false) (t : Text) :
    withoutZeros false (ds ++ c :: t) = numeral (numeralValue ds) ++ c :: withoutZeros false t := by
  induction ds with
  | nil => exact absurd rfl hne
  | cons d ds ih =>
    have hd : d.isDigit = true := h d (by simp)
    have hds : ∀ e ∈ ds, e.isDigit = true := fun e he => h e (by simp [he])
    by_cases h0 : d = '0'
    · subst h0
      cases ds with
      | nil =>
        have hkept := withoutZeros_kept (d := '0') (t := c :: t) (.inr hc) false
        rw [List.cons_append, List.nil_append, hkept, hd, withoutZeros_nondigit hc]
        rfl
      | cons e ds =>
        have hdrop := withoutZeros_zero (hds e (by simp)) (ds ++ c :: t)
        rw [numeralValue_zero_cons, ← ih hds (List.cons_ne_nil e ds)]
        exact hdrop
    · rw [List.cons_append, withoutZeros_kept (.inl h0), hd, withoutZeros_append hds,
        withoutZeros_nondigit hc, numeral_numeralValue h0 h, List.cons_append]

/-! ### Numbers in texts -/

theorem Denotes.ne_nil (h : Denotes ds n) : ds ≠ [] := by
  rintro rfl
  cases h.2

theorem Denotes.numeralValue_eq (h : Denotes ds n) : numeralValue ds = n.toNat := by
  obtain ⟨-, hb⟩ := h
  unfold bound? at hb
  split_ifs at hb with _ hlt
  obtain rfl := Option.some.inj hb
  exact (UInt32.toNat_ofNat_of_lt hlt).symm

theorem Denotes.notMem (h : Denotes ds n) (hc : c.isDigit = false) : c ∉ ds :=
  fun m => ne_of_isDigit (h.1 c m) hc rfl

theorem Denotes.withoutZeros (h : Denotes ds n) (hc : c.isDigit = false) (t : Text) :
    withoutZeros false (ds ++ c :: t) = numeral n.toNat ++ c :: Text.withoutZeros false t := by
  rw [withoutZeros_digits h.1 h.ne_nil hc, h.numeralValue_eq]

/-- What stands before the first `c` of a text, and after it. -/
def splitFirst? (c : Char) : Text → Option (Text × Text)
  | [] => none
  | d :: rest =>
    if d = c then some ([], rest)
    else (splitFirst? c rest).map fun (before, after) => (d :: before, after)

theorem splitFirst?_eq_some_iff {before after : Text} :
    splitFirst? c t = some (before, after) ↔ t = before ++ c :: after ∧ c ∉ before := by
  induction t generalizing before with
  | nil => simp [splitFirst?]
  | cons d t ih =>
    by_cases hd : d = c
    · cases before with
      | nil => simp [splitFirst?, hd]
      | cons e before =>
        refine iff_of_false (by simp [splitFirst?, hd]) ?_
        rintro ⟨h, hb⟩
        obtain ⟨rfl, -⟩ := List.cons.inj h
        exact hb (by simp [hd])
    · cases before with
      | nil => simp [splitFirst?, hd]
      | cons e before =>
        have hmap : splitFirst? c (d :: t) = some (e :: before, after) ↔
            d = e ∧ splitFirst? c t = some (before, after) := by
          cases h : splitFirst? c t <;> simp [splitFirst?, hd, h, Prod.ext_iff, and_assoc]
        rw [hmap, ih]
        constructor
        · rintro ⟨rfl, rfl, hb⟩
          exact ⟨rfl, by simp [Ne.symm hd, hb]⟩
        · rintro ⟨h, hb⟩
          obtain ⟨rfl, rfl⟩ := List.cons.inj h
          exact ⟨rfl, rfl, List.not_mem_of_not_mem_cons hb⟩

theorem splitFirst?_eq_none_iff : splitFirst? c t = none ↔ c ∉ t := by
  induction t with
  | nil => simp [splitFirst?]
  | cons d t ih =>
    rw [splitFirst?]
    split
    · next hd => simp [hd]
    · next hd => simp [ih, Ne.symm hd]

/-- The bound that a text denotes as a whole. -/
def wholeBound? (t : Text) : Option UInt32 :=
  if t.all Char.isDigit then bound? t else none

theorem wholeBound?_eq_some_iff : wholeBound? t = some n ↔ Denotes t n := by
  rw [wholeBound?, Denotes, ← List.all_eq_true]
  split_ifs with h <;> simp [h]

end Text

/-! ### Texts of ranges -/

open Text

variable {s t : Text} {us : Source} {q : Quantifier}

namespace RangeText

/-- What a quantifier writes is any of its texts without leading zeros. -/
theorem suffix_eq (h : RangeText s q) : q.suffix = withoutZeros false s := by
  cases h with
  | @exactly ds n h =>
    rw [withoutZeros_nondigit rfl, h.withoutZeros rfl]
    simp [Quantifier.suffix, Text.withoutZeros]
  | @between ds es low high hl hh =>
    rw [withoutZeros_nondigit rfl, hl.withoutZeros rfl, hh.withoutZeros rfl]
    simp [Quantifier.suffix, Text.withoutZeros]

theorem notMem_backslash (h : RangeText s q) : '\\' ∉ s := by
  cases h with
  | exactly h => simpa using h.notMem rfl
  | between hl hh => simpa using ⟨hl.notMem rfl, hh.notMem rfl⟩

end RangeText

/-! ### Reading a range -/

namespace Source

/-- A range is read off the start of a text. -/
theorem takeRange?_ofText_iff :
    takeRange? (ofText t) = some (q, us) ↔
      ∃ s rest, t = s ++ rest ∧ us = ofText rest ∧ RangeText s q := by
  rw [takeRange?_eq_some_iff]
  constructor
  · rintro ⟨s, e, h⟩
    have hp := proper_ofText t
    rw [e] at hp
    refine ⟨s, us.text, ?_, hp.right.symm, h⟩
    rw [← text_ofText t, e, text_append, text_map_plain]
  · rintro ⟨s, rest, rfl, rfl, h⟩
    have hs := ofText_text_append (closed_map_plain h.notMem_backslash) rest
    rw [text_map_plain] at hs
    exact ⟨s, hs, h⟩

/-! ### Finding a range in the text -/

/-- The quantifier that the text between two braces says. -/
def quantifierOf? (body : Text) : Option Quantifier :=
  match splitFirst? ',' body with
  | some (low, high) => do return .between (← wholeBound? low) (← wholeBound? high)
  | none => (wholeBound? body).map .exactly

/-- The range that a text starts with, found by its closing brace, and its size in bytes. -/
def rangeOf? : Text → Option (Quantifier × Nat)
  | '{' :: inner => do
    let (body, _) ← splitFirst? '}' inner
    let q ← quantifierOf? body
    return (q, byteSize body + 2)
  | _ => none

theorem quantifierOf?_eq_some_iff {body : Text} :
    quantifierOf? body = some q ↔ RangeText ('{' :: (body ++ ['}'])) q := by
  rw [quantifierOf?]
  constructor
  · intro h
    split at h
    · next low high hs =>
      obtain ⟨rfl, -⟩ := splitFirst?_eq_some_iff.1 hs
      simp only [Option.bind_eq_bind, Option.bind_eq_some_iff, Option.pure_def,
        Option.some.injEq, wholeBound?_eq_some_iff] at h
      obtain ⟨m, hm, n, hn, rfl⟩ := h
      simpa using RangeText.between hm hn
    · obtain ⟨n, hn, rfl⟩ := Option.map_eq_some_iff.1 h
      exact .exactly (wholeBound?_eq_some_iff.1 hn)
  · intro h
    generalize ht : '{' :: (body ++ ['}']) = t at h
    cases h with
    | @exactly ds n h =>
      obtain rfl : body = ds := by simpa using ht
      rw [splitFirst?_eq_none_iff.2 (h.notMem rfl)]
      simp [wholeBound?_eq_some_iff.2 h]
    | @between ds es low high hl hh =>
      obtain rfl : body = ds ++ ',' :: es := by
        have he : body ++ ['}'] = (ds ++ ',' :: es) ++ ['}'] := by simpa using ht
        exact List.append_cancel_right he
      rw [splitFirst?_eq_some_iff.2 ⟨rfl, hl.notMem rfl⟩]
      simp [wholeBound?_eq_some_iff.2 hl, wholeBound?_eq_some_iff.2 hh]

theorem exists_body (h : RangeText s q) : ∃ body, s = '{' :: (body ++ ['}']) ∧ '}' ∉ body := by
  cases h with
  | exactly h => exact ⟨_, rfl, h.notMem rfl⟩
  | @between ds es low high hl hh =>
    exact ⟨ds ++ ',' :: es, by simp, by simp [hl.notMem (c := '}') rfl, hh.notMem (c := '}') rfl]⟩

/-- A range is found in a text just where one of its texts stands, and with the size of that. -/
theorem rangeOf?_eq_some_iff {size : Nat} :
    rangeOf? t = some (q, size) ↔
      ∃ s rest, t = s ++ rest ∧ byteSize s = size ∧ RangeText s q := by
  have hsize : ∀ body : Text, byteSize ('{' :: (body ++ ['}'])) = byteSize body + 2 := by
    intro body
    have hopen : '{'.utf8Size = 1 := rfl
    have hclose : '}'.utf8Size = 1 := rfl
    simp only [byteSize_cons, byteSize_append, byteSize_nil]
    omega
  constructor
  · intro h
    unfold rangeOf? at h
    split at h
    · simp only [Option.bind_eq_bind, Option.bind_eq_some_iff, Option.pure_def, Option.some.injEq,
        Prod.mk.injEq, Prod.exists] at h
      obtain ⟨body, after, hs, q', hq, rfl, rfl⟩ := h
      obtain ⟨rfl, -⟩ := splitFirst?_eq_some_iff.1 hs
      exact ⟨_, after, by simp, hsize body, quantifierOf?_eq_some_iff.1 hq⟩
    · cases h
  · rintro ⟨s, rest, rfl, rfl, h⟩
    obtain ⟨body, rfl, hb⟩ := exists_body h
    have hs : splitFirst? '}' (body ++ '}' :: rest) = some (body, rest) :=
      splitFirst?_eq_some_iff.2 ⟨rfl, hb⟩
    rw [hsize]
    simp [rangeOf?, hs, quantifierOf?_eq_some_iff.2 h]

/-- Reading unit by unit takes just what finding a range in the text says. -/
theorem rangeOf?_iff_takeRange? {size : Nat} :
    rangeOf? t = some (q, size) ↔
      ∃ s rest, t = s ++ rest ∧ byteSize s = size ∧ takeRange? (ofText t) = some (q, ofText rest) := by
  rw [rangeOf?_eq_some_iff]
  constructor
  · rintro ⟨s, rest, rfl, hs, h⟩
    exact ⟨s, rest, rfl, hs, takeRange?_ofText_iff.2 ⟨s, rest, rfl, rfl, h⟩⟩
  · rintro ⟨s, rest, rfl, hs, h⟩
    obtain ⟨s', rest', e, he, h⟩ := takeRange?_ofText_iff.1 h
    obtain rfl : rest = rest' := by
      rw [← text_ofText rest, he, text_ofText]
    obtain rfl := List.append_cancel_right e
    exact ⟨s, rest, rfl, hs, h⟩

end Source

open Source in
/-- A quantifier is written, given as arguments and read from a source in one sense. What it writes
is read back, in full and whatever follows, as the quantifier that its arguments give, and that one
writes the same and has the same arguments. Whatever range stands in a text, what its quantifier
writes is that range without leading zeros, and is read as the quantifier again. Reading unit by
unit takes just the bytes that finding the range in the text says. -/
theorem Quantifier.encodings :
    (∀ q : Quantifier, q ≠ .none → ∀ rest : Text, ∃ q' : Quantifier,
      ofArguments q.arguments = .ok q' ∧
        rangeOf? (q.suffix ++ rest) = some (q', byteSize q.suffix) ∧
        takeRange? (ofText (q.suffix ++ rest)) = some (q', ofText rest) ∧
        q'.suffix = q.suffix ∧ q'.arguments = q.arguments) ∧
    (∀ (t : Text) (q : Quantifier) (size : Nat), rangeOf? t = some (q, size) →
      ∃ s rest : Text, t = s ++ rest ∧ byteSize s = size ∧ q.suffix = withoutZeros false s ∧
        ofArguments q.arguments = .ok q ∧ ∀ rest' : Text,
          rangeOf? (q.suffix ++ rest') = some (q, byteSize q.suffix) ∧
            takeRange? (ofText (q.suffix ++ rest')) = some (q, ofText rest')) ∧
    ∀ (t : Text) (q : Quantifier) (size : Nat), rangeOf? t = some (q, size) ↔
      ∃ s rest : Text, t = s ++ rest ∧ byteSize s = size ∧
        takeRange? (ofText t) = some (q, ofText rest) := by
  have reads : ∀ {s : Text} {q : Quantifier}, RangeText s q → ∀ rest : Text,
      rangeOf? (s ++ rest) = some (q, byteSize s) ∧
        takeRange? (ofText (s ++ rest)) = some (q, ofText rest) := fun {s q} h rest =>
    ⟨rangeOf?_eq_some_iff.2 ⟨s, rest, rfl, rfl, h⟩,
      takeRange?_ofText_iff.2 ⟨s, rest, rfl, rfl, h⟩⟩
  refine ⟨fun q hq rest => ?_, fun t q size h => ?_, fun t q size => rangeOf?_iff_takeRange?⟩
  · obtain ⟨q', ha, hs, he, hargs⟩ := exists_rangeText_suffix hq
    obtain ⟨hr, ht⟩ := reads hs rest
    exact ⟨q', ha, hr, ht, he, hargs⟩
  · obtain ⟨s, rest, rfl, hs, h⟩ := rangeOf?_eq_some_iff.1 h
    exact ⟨s, rest, rfl, hs, h.suffix_eq, h.ofArguments, reads h.suffix⟩

open Source in
/-- A quantifier with an upper bound alone comes back from its suffix with a lower one, before more
digits and braces; and a range with leading zeros is found before them. -/
theorem Quantifier.encodings_zeros :
    (∃ q' : Quantifier, ofArguments (⟨.none, some 70⟩ : Quantifier).arguments = .ok q' ∧
      takeRange? (ofText ((⟨.none, some 70⟩ : Quantifier).suffix ++ "7\x7d\x7b1\x7d".toList)) =
        some (q', ofText "7\x7d\x7b1\x7d".toList)) ∧
    rangeOf? "\x7b00,0120\x7d0\x7d".toList = some (.between 0 120, 9) ∧
    ∃ s rest : Text, "\x7b00,0120\x7d0\x7d".toList = s ++ rest ∧ byteSize s = 9 ∧
      (between 0 120).suffix = withoutZeros false s := by
  obtain ⟨hwritten, hread, -⟩ := encodings
  obtain ⟨q', ha, -, ht, -⟩ := hwritten ⟨.none, some 70⟩ (by decide) "7\x7d\x7b1\x7d".toList
  have h : rangeOf? "\x7b00,0120\x7d0\x7d".toList = some (.between 0 120, 9) := by decide
  obtain ⟨s, rest, e, hs, hz, -⟩ := hread _ _ _ h
  exact ⟨⟨q', ha, ht⟩, h, s, rest, e, hs, hz⟩

end FluentRegex
