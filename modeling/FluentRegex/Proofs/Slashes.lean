import FluentRegex.CommandLine.Run
import FluentRegex.Proofs.RoundTrip

/-!
Patterns between slashes. A source may hold slashes, and letters after them, so only the last slash
can end it; and flags are letters, so the last slash of a written pattern is the one that was put
there. A text that is no pattern between slashes can be put between slashes with the flags of the
command line, and is described just as it is with them beside it.
-/

namespace FluentRegex

open CommandLine (Options Outcome)

namespace Pattern

variable {s t f : Text}

/-! ### Splitting -/

theorem slash_notMem_of_letters (h : f.all Char.isAlpha = true) : '/' ∉ f :=
  fun m => absurd (List.all_eq_true.1 h _ m) (by decide)

/-- A text is split exactly where source and flags have been joined. -/
theorem splitLiteral?_eq_some_iff :
    splitLiteral? t = some (s, f) ↔ t = '/' :: (s ++ '/' :: f) ∧ f.all Char.isAlpha = true := by
  constructor
  · intro h
    unfold splitLiteral? at h
    split at h
    · next rest =>
      cases hs : splitLastSlash? rest with
      | none => simp [hs] at h
      | some r =>
        obtain ⟨source, flags⟩ := r
        simp only [hs] at h
        split at h
        · next hf =>
          obtain ⟨rfl, rfl⟩ := by simpa using h
          exact ⟨by rw [(eq_of_splitLastSlash? hs).1], hf⟩
        · cases h
    · cases h
  · rintro ⟨rfl, hf⟩
    have hs : splitLastSlash? (s ++ '/' :: f) = some (s, f) :=
      splitLastSlash?_append (slash_notMem_of_letters hf)
    simp [splitLiteral?, hs, hf]

theorem splitLiteral_of_joined (hf : f.all Char.isAlpha = true) :
    splitLiteral ('/' :: (s ++ '/' :: f)) = (s, f) := by
  rw [splitLiteral, splitLiteral?_eq_some_iff.2 ⟨rfl, hf⟩]
  rfl

/-- The source of a split text is shorter than the text. -/
theorem byteSize_source_lt (h : splitLiteral? t = some (s, f)) : s.byteSize < t.byteSize := by
  obtain ⟨rfl, -⟩ := splitLiteral?_eq_some_iff.1 h
  have : '/'.utf8Size = 1 := rfl
  simp only [Text.byteSize_cons, Text.byteSize_append]
  omega

/-! ### Reading a written pattern -/

theorem letters_text (fs : Flags) : fs.text.all Char.isAlpha = true := by
  have h : Flag.all.all (fun f => f.char.isAlpha) = true := by decide
  rw [Flags.text, List.all_map, List.all_eq_true]
  exact fun f _ => List.all_eq_true.1 h f (Flag.mem_all f)

theorem display_eq (p : Pattern) : p.display = '/' :: (p.source ++ '/' :: p.flags.text) := by
  simp [display]

theorem parse_display (p : Pattern) : parse p.display = .ok p := by
  rw [parse, display_eq, splitLiteral_of_joined (letters_text p.flags)]
  exact make_self p

theorem display_injective {p q : Pattern} (h : p.display = q.display) : p = q := by
  have := parse_display p
  rw [h, parse_display q] at this
  exact (Except.ok.inj this).symm

end Pattern

namespace CommandLine

open Pattern

variable {o : Options} {colored : Bool} {s t f : Text}

/-! ### Flags of the command line -/

/-- The flags of the options are taken exactly for a text that splitting leaves as long as it is. -/
theorem patternOf_eq (o : Options) (t : Text) :
    patternOf o t = make (splitLiteral t).1
      (if (splitLiteral t).1.byteSize = t.byteSize then o.flags else (splitLiteral t).2) := by
  rw [patternOf, splitLiteral]
  cases h : splitLiteral? t with
  | none => simp
  | some r => simp [Nat.ne_of_lt (byteSize_source_lt h)]

theorem patternOf_whole (h : (splitLiteral t).1 = t) : patternOf o t = make t o.flags := by
  rw [patternOf_eq, h, if_pos rfl]

theorem patternOf_joined (hf : f.all Char.isAlpha = true) :
    patternOf o ('/' :: (s ++ '/' :: f)) = make s f := by
  rw [patternOf, splitLiteral?_eq_some_iff.2 ⟨rfl, hf⟩]
  rfl

/-- The outcomes are the same line of output, or reports of the same error about two texts. -/
def SameOutcome (colored : Bool) (s t : Text) (a b : Outcome) : Prop :=
  (∃ line, a = .line line ∧ b = .line line) ∨
    ∃ e : PatternError, a = report colored s e.message ∧ b = report colored t e.message

/-- Texts that write one pattern, or fail with one error, are described alike. -/
theorem sameOutcome_describe {o o' : Options} (hc : o.compact = o'.compact)
    (h : patternOf o s = patternOf o' t) :
    SameOutcome colored s t (describe o colored s) (describe o' colored t) := by
  rw [describe, describe, h, hc]
  cases patternOf o' t with
  | ok p => exact .inl ⟨_, rfl, rfl⟩
  | error e => exact .inr ⟨e, rfl, rfl⟩

/-- A source and letters that are joined with slashes are split where they were joined. So a written
pattern is read back, and equal patterns are those that are written alike. A text that splitting
leaves whole is described with flags on the command line as it is between slashes with these flags
behind it, whatever flags the command line has then. -/
theorem splitLiteral_joined :
    (∀ s f : Text, f.all Char.isAlpha = true → splitLiteral ('/' :: (s ++ '/' :: f)) = (s, f)) ∧
    (∀ p : Pattern, parse p.display = .ok p) ∧
    (∀ p q : Pattern, p = q ↔ p.display = q.display) ∧
    ∀ (o : Options) (colored : Bool) (s f : Text), f.all Char.isAlpha = true →
      (splitLiteral s).1 = s →
        SameOutcome colored s ('/' :: (s ++ '/' :: f)) (describe { o with flags := f } colored s)
          (describe o colored ('/' :: (s ++ '/' :: f))) := by
  refine ⟨fun s f => splitLiteral_of_joined, parse_display, fun p q => ?_, ?_⟩
  · exact ⟨fun h => h ▸ rfl, display_injective⟩
  · intro o colored s f hf hs
    refine sameOutcome_describe rfl ?_
    rw [patternOf_whole hs, patternOf_joined hf]

/-- A source that looks like a pattern between slashes is split off whole. A text with a digit after
its last slash is no such pattern, but can be put between slashes. -/
theorem splitLiteral_joined_slashes :
    splitLiteral "//a/i/mg".toList = ("/a/i".toList, "mg".toList) ∧
    (splitLiteral "/a/1".toList).1 = "/a/1".toList ∧
    SameOutcome false "/a/1".toList "//a/1/gi".toList
      (describe { flags := "gi".toList } false "/a/1".toList)
      (describe {} false "//a/1/gi".toList) := by
  have hs : (splitLiteral "/a/1".toList).1 = "/a/1".toList := by decide
  exact ⟨splitLiteral_joined.1 "/a/i".toList "mg".toList (by decide), hs,
    splitLiteral_joined.2.2.2 {} false "/a/1".toList "gi".toList (by decide) hs⟩

end CommandLine

end FluentRegex
