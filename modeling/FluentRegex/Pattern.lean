import FluentRegex.Flags
import FluentRegex.Pattern.Grammar

/-!
Patterns: a source with flags under which it is accepted. A pattern is written between slashes
with its flags after them, and read back from that form or from a bare source.

The engine that patterns are compiled by is a library of its own. Of it there is only the part of
its syntax that `Pattern.accepts` recognises, and of its refusals only that they are refusals: what
the engine says is not modelled, and one message stands for all of it.
-/

namespace FluentRegex

inductive PatternError where
  | flags (e : FlagError)
  /-- The source is not accepted under these flags, for whatever reason of the engine. -/
  | rejected
  deriving DecidableEq, Repr

def PatternError.message : PatternError → Text
  | flags e => e.message
  | rejected => "Invalid pattern".toList

/-- An accepted source with its flags. Two patterns are equal when source and flags are. -/
structure Pattern where
  source : Text
  flags : Flags
  accepted : Pattern.accepts (flags.compileSource source) = true
  deriving DecidableEq

namespace Pattern

/-- The text that stands for the pattern when it is compiled. -/
def compiled (p : Pattern) : Text :=
  p.flags.compileSource p.source

/-- The pattern with this source and these flags. The flags are checked before the source. -/
def make (source flags : Text) : Except PatternError Pattern :=
  match Flags.parse flags with
  | .error e => .error (.flags e)
  | .ok fs =>
    if h : accepts (fs.compileSource source) = true then .ok ⟨source, fs, h⟩ else .error .rejected

/-- The pattern between slashes, with its flags after the last one. -/
def display (p : Pattern) : Text :=
  ['/'] ++ p.source ++ ['/'] ++ p.flags.text

/-- What stands before the last slash of a text, and after it. -/
def splitLastSlash? : Text → Option (Text × Text)
  | [] => none
  | c :: rest =>
    match splitLastSlash? rest with
    | some (before, after) => some (c :: before, after)
    | none => if c = '/' then some ([], rest) else none

/-- The source and the flags of a text that is a pattern between slashes: it starts with a slash,
and only ASCII letters follow the last slash after that one. -/
def splitLiteral? : Text → Option (Text × Text)
  | '/' :: rest =>
    match splitLastSlash? rest with
    | some (source, flags) => if flags.all Char.isAlpha then some (source, flags) else none
    | none => none
  | _ => none

/-- The source and the flags of a pattern between slashes; any other text is a source without
flags. -/
def splitLiteral (t : Text) : Text × Text :=
  (splitLiteral? t).getD (t, [])

/-- The pattern that a text writes, between slashes or as a bare source. -/
def parse (t : Text) : Except PatternError Pattern :=
  make (splitLiteral t).1 (splitLiteral t).2

theorem eq_of_splitLastSlash? {t before after : Text}
    (h : splitLastSlash? t = some (before, after)) : t = before ++ '/' :: after ∧ '/' ∉ after := by
  induction t generalizing before with
  | nil => cases h
  | cons c rest ih =>
    rw [splitLastSlash?] at h
    split at h
    · next e =>
      obtain ⟨rfl, rfl⟩ := by simpa using h
      obtain ⟨rfl, h'⟩ := ih e
      exact ⟨rfl, h'⟩
    · next e =>
      split at h
      · next hc =>
        obtain ⟨rfl, rfl⟩ := by simpa using h
        refine ⟨by simp [hc], fun m => ?_⟩
        clear ih h
        induction rest with
        | nil => simp at m
        | cons d rest ih =>
          rw [splitLastSlash?] at e
          split at e
          · cases e
          · next e' =>
            split at e
            · cases e
            · next hd => exact ih e' (by simpa [Ne.symm hd] using m)
      · cases h

/-- Splitting finds a slash with no slash after it. -/
theorem splitLastSlash?_append {before after : Text} (h : '/' ∉ after) :
    splitLastSlash? (before ++ '/' :: after) = some (before, after) := by
  have none_of_not_mem : ∀ t : Text, '/' ∉ t → splitLastSlash? t = none := by
    intro t ht
    cases e : splitLastSlash? t with
    | none => rfl
    | some r => exact absurd (by simp [(eq_of_splitLastSlash? e).1]) ht
  induction before with
  | nil => simp [splitLastSlash?, none_of_not_mem after h]
  | cons c before ih => simp [splitLastSlash?, ih]

end Pattern

end FluentRegex
