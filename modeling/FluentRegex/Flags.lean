import FluentRegex.Text

/-!
Pattern flags. A value holds each flag at most once, in alphabetical order, and never both `u` and
`v`, so equal sets of flags are equal values.
-/

namespace FluentRegex

/-- One flag. Only `ignoreCase`, `multiline` and `dotAll` change how a pattern is compiled. -/
inductive Flag where
  | indices | global | ignoreCase | multiline | dotAll | unicode | unicodeSets | sticky
  deriving DecidableEq, Repr

namespace Flag

/-- Every flag, in the order of their characters. -/
def all : List Flag :=
  [indices, global, ignoreCase, multiline, dotAll, unicode, unicodeSets, sticky]

def char : Flag → Char
  | indices => 'd'
  | global => 'g'
  | ignoreCase => 'i'
  | multiline => 'm'
  | dotAll => 's'
  | unicode => 'u'
  | unicodeSets => 'v'
  | sticky => 'y'

def ofChar? (c : Char) : Option Flag :=
  all.find? (·.char == c)

theorem mem_all (f : Flag) : f ∈ all := by
  cases f <;> decide

theorem ofChar?_char (f : Flag) : ofChar? f.char = some f := by
  cases f <;> decide

theorem char_of_ofChar? {c : Char} {f : Flag} (h : ofChar? c = some f) : f.char = c := by
  simpa using List.find?_some h

end Flag

inductive FlagError where
  | unknown (c : Char)
  | duplicate (c : Char)
  | unicodeConflict
  deriving DecidableEq, Repr

def FlagError.message : FlagError → Text
  | unknown c => "Invalid flag '".toList ++ [c] ++ "'".toList
  | duplicate c => "Duplicate flag '".toList ++ [c] ++ "'".toList
  | unicodeConflict => "Flags 'u' and 'v' cannot be combined".toList

structure Flags where
  toList : List Flag
  sublist_all : toList.Sublist Flag.all
  compatible : ¬ (Flag.unicode ∈ toList ∧ Flag.unicodeSets ∈ toList)
  deriving DecidableEq

namespace Flags

def empty : Flags :=
  ⟨[], List.nil_sublist _, by simp⟩

def contains (fs : Flags) (f : Flag) : Bool :=
  f ∈ fs.toList

/-- Whether the flag with this character is set. Characters of no flag are not. -/
def containsChar (fs : Flags) (c : Char) : Bool :=
  (Flag.ofChar? c).any fs.contains

/-- The flags of a text, the last one first, when `chosen` have been read before it. The first
unknown or repeated character is the error. -/
def readFrom (chosen : List Flag) : Text → Except FlagError (List Flag)
  | [] => .ok chosen
  | c :: rest =>
    match Flag.ofChar? c with
    | none => .error (.unknown c)
    | some f => if f ∈ chosen then .error (.duplicate c) else readFrom (f :: chosen) rest

/-- The flags of a text, in any order. That `u` and `v` exclude each other is checked last. -/
def parse (t : Text) : Except FlagError Flags :=
  match readFrom [] t with
  | .error e => .error e
  | .ok chosen =>
    if h : Flag.unicode ∈ chosen ∧ Flag.unicodeSets ∈ chosen then .error .unicodeConflict
    else .ok ⟨Flag.all.filter (· ∈ chosen), List.filter_sublist, by simpa [Flag.mem_all] using h⟩

/-- The characters of the flags, in alphabetical order. -/
def text (fs : Flags) : Text :=
  fs.toList.map Flag.char

/-- The characters of the flags that change how a pattern is compiled. -/
def inlineText (fs : Flags) : Text :=
  ([Flag.ignoreCase, Flag.multiline, Flag.dotAll].filter fs.contains).map Flag.char

/-- The text that is compiled for a source under these flags: the source, after an inline group
for the flags that change its meaning. -/
def compileSource (fs : Flags) (source : Text) : Text :=
  if fs.inlineText.isEmpty then source
  else ['(', '?'] ++ fs.inlineText ++ [')'] ++ source

end Flags

end FluentRegex
