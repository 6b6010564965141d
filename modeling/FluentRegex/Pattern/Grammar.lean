import FluentRegex.Source

/-!
Which pattern sources are accepted, as far as the syntax of the engine is covered here: one inline
group of the flags i, m and s at the start; alternatives; single characters, `.`, escape pairs, and
the assertions `^`, `$`, `\b` and `\B`; sets of characters, escape pairs and ranges of characters;
capturing and non-capturing groups and the four lookarounds; and `*`, `+`, `?`, `{n}`, `{n,}` and
`{n,m}`, with `?` and then `+` after them. Not covered are other openings that start with `(?`,
which are refused, and what the engine finds out about the meaning of the parts, which never leads
to a refusal: unknown escapes, references to missing groups, the width of what a lookbehind matches,
limits on size, and sets inside of sets with their operators.

Of all this the results about describing and rebuilding use only that an accepted source does not
end in an unpaired backslash; which rebuilt sources are accepted again depends on every clause.

The source is cut into elements first, where an unclosed set, a reversed range of characters or an
unpaired backslash is refused; then the elements are read in order, where every quantifier needs
something to repeat and every parenthesis its partner.
-/

namespace FluentRegex.Pattern

/-- An element of a pattern, as far as acceptance depends on it. -/
inductive Element where
  /-- Something that matches and can be repeated, or a literal character. -/
  | atom
  /-- A position that cannot be repeated: `^`, `$`, `\b` and `\B`. -/
  | assertion
  | alternation
  /-- A question mark, which repeats or changes how the repetition before it works. -/
  | optional
  /-- A plus sign, likewise. -/
  | oneOrMore
  | anyNumber
  /-- A well-formed range between braces, with its bounds in order or not. -/
  | range (ordered : Bool)
  | opening (lookaround : Bool)
  | closing
  deriving DecidableEq, Repr

/-- The digits at the start of a source, as a number if there are any, and the source after them. -/
def takeNumber? : Source → Option Nat → Option Nat × Source
  | .plain c :: us, n =>
    if c.isDigit then takeNumber? us (some (10 * n.getD 0 + (c.toNat - '0'.toNat)))
    else (n, .plain c :: us)
  | us, n => (n, us)

/-- The range `{n}`, `{n,}` or `{n,m}` whose opening brace has just been read: whether its bounds
are in order, and the source after it. -/
def takeBraces? (us : Source) : Option (Bool × Source) :=
  match takeNumber? us none with
  | (some _, .plain '}' :: rest) => some (true, rest)
  | (some n, .plain ',' :: us') =>
    match takeNumber? us' none with
    | (none, .plain '}' :: rest) => some (true, rest)
    | (some m, .plain '}' :: rest) => some (decide (n ≤ m), rest)
    | _ => none
  | _ => none

/-- The source after the items of a set and its closing bracket. A hyphen between two plain
characters makes a range of characters, which must be in order. -/
def closeSet? : Source → Option Source
  | [] => none
  | .plain ']' :: rest => some rest
  | .plain x :: .plain '-' :: .plain y :: rest =>
    if y = ']' then some rest else if y < x then none else closeSet? rest
  | _ :: rest => closeSet? rest

/-- The source after a set whose opening bracket has just been read. -/
def skipSet? : Source → Option Source
  | .plain '^' :: us => closeSet? us
  | us => closeSet? us

/-- The kind of opening of a group whose parenthesis has just been read, and the source after it. -/
def takeOpening : Source → Bool × Source
  | .plain '?' :: .plain ':' :: us => (false, us)
  | .plain '?' :: .plain '=' :: us => (true, us)
  | .plain '?' :: .plain '!' :: us => (true, us)
  | .plain '?' :: .plain '<' :: .plain '=' :: us => (true, us)
  | .plain '?' :: .plain '<' :: .plain '!' :: us => (true, us)
  | us => (false, us)

theorem length_takeNumber?_le (us : Source) (n : Option Nat) :
    (takeNumber? us n).2.length ≤ us.length := by
  fun_induction takeNumber? us n with
  | case1 c us n h ih => exact Nat.le_succ_of_le ih
  | case2 => simp
  | case3 => simp

theorem length_of_takeBraces? {us rest : Source} {ordered : Bool}
    (h : takeBraces? us = some (ordered, rest)) : rest.length < us.length := by
  unfold takeBraces? at h
  have h₁ := length_takeNumber?_le us none
  split at h
  · next e =>
    obtain ⟨_, rfl⟩ := by simpa using h
    simp [e] at h₁
    omega
  · next us' e =>
    have h₂ := length_takeNumber?_le us' none
    simp [e] at h₁
    split at h
    · next e' =>
      obtain ⟨_, rfl⟩ := by simpa using h
      simp [e'] at h₂
      omega
    · next e' =>
      obtain ⟨_, rfl⟩ := by simpa using h
      simp [e'] at h₂
      omega
    · cases h
  · cases h

theorem length_of_closeSet? {us rest : Source} (h : closeSet? us = some rest) :
    rest.length < us.length := by
  fun_induction closeSet? us with
  | case1 => cases h
  | case2 => cases h; simp
  | case3 => cases h; simp; omega
  | case4 => cases h
  | case5 _ _ _ _ _ _ ih =>
    have := ih h
    simp
    omega
  | case6 _ _ _ _ ih =>
    have := ih h
    simp
    omega

theorem length_of_skipSet? {us rest : Source} (h : skipSet? us = some rest) :
    rest.length < us.length := by
  unfold skipSet? at h
  split at h
  · have := length_of_closeSet? h
    simp; omega
  · exact length_of_closeSet? h

theorem length_takeOpening_le (us : Source) : (takeOpening us).2.length ≤ us.length := by
  unfold takeOpening
  split <;> simp <;> omega

/-- The elements of a source; none if a set is not well formed or a backslash escapes nothing. -/
def elements? : Source → Option (List Element)
  | [] => some []
  | .escaped c :: us =>
    (elements? us).map fun es => (if c = 'b' || c = 'B' then .assertion else .atom) :: es
  | .plain c :: us =>
    match c with
    | '\\' => none
    | '[' =>
      match _ : skipSet? us with
      | none => none
      | some rest => (elements? rest).map (.atom :: ·)
    | '(' => (elements? (takeOpening us).2).map (.opening (takeOpening us).1 :: ·)
    | ')' => (elements? us).map (.closing :: ·)
    | '|' => (elements? us).map (.alternation :: ·)
    | '^' => (elements? us).map (.assertion :: ·)
    | '$' => (elements? us).map (.assertion :: ·)
    | '?' => (elements? us).map (.optional :: ·)
    | '+' => (elements? us).map (.oneOrMore :: ·)
    | '*' => (elements? us).map (.anyNumber :: ·)
    | '{' =>
      match _ : takeBraces? us with
      | some (ordered, rest) => (elements? rest).map (.range ordered :: ·)
      | none => (elements? us).map (.atom :: ·)
    | _ => (elements? us).map (.atom :: ·)
termination_by us => us.length
decreasing_by
  all_goals simp only [List.length_cons]
  any_goals omega
  · rename_i h
    have := length_of_skipSet? h
    omega
  · have := length_takeOpening_le us
    omega
  · rename_i h
    have := length_of_takeBraces? h
    omega

/-- What stands just before a point of a pattern. -/
inductive Preceding where
  /-- Nothing that can be repeated: the start of a branch, or a complete quantifier. -/
  | nothing
  | atom
  | assertion
  /-- A quantifier, which a question mark and then a plus sign may complete. -/
  | quantifier
  /-- A quantifier with a question mark, which a plus sign may complete. -/
  | lazyQuantifier
  deriving DecidableEq, Repr

/-- A point in a pattern: what stands just before it, and for each group that is open there, the
innermost first, whether it is a lookaround. -/
structure Point where
  preceding : Preceding := .nothing
  groups : List Bool := []
  deriving DecidableEq, Repr

/-- The point after one more element; none if the element cannot stand there. A range where
nothing can be repeated is literal text. -/
def Point.step? (p : Point) : Element → Option Point
  | .atom => some { p with preceding := .atom }
  | .assertion => some { p with preceding := .assertion }
  | .alternation => some { p with preceding := .nothing }
  | .anyNumber =>
    match p.preceding with
    | .atom => some { p with preceding := .quantifier }
    | _ => none
  | .optional =>
    match p.preceding with
    | .atom => some { p with preceding := .quantifier }
    | .quantifier => some { p with preceding := .lazyQuantifier }
    | _ => none
  | .oneOrMore =>
    match p.preceding with
    | .atom => some { p with preceding := .quantifier }
    | .quantifier | .lazyQuantifier => some { p with preceding := .nothing }
    | _ => none
  | .range ordered =>
    match p.preceding with
    | .atom => if ordered then some { p with preceding := .quantifier } else none
    | .assertion => none
    | _ => some { p with preceding := .atom }
  | .opening lookaround => some ⟨.nothing, lookaround :: p.groups⟩
  | .closing =>
    match p.groups with
    | [] => none
    | lookaround :: outer => some ⟨if lookaround then .assertion else .atom, outer⟩

def Point.run? (p : Point) : List Element → Option Point
  | [] => some p
  | e :: es => (p.step? e).bind fun q => q.run? es

/-- The source after an inline group of flags at its start. -/
def skipInlineFlags (us : Source) : Source :=
  match us with
  | .plain '(' :: .plain '?' :: rest =>
    let isFlag u := u == .plain 'i' || u == .plain 'm' || u == .plain 's'
    match rest.takeWhile isFlag, rest.dropWhile isFlag with
    | _ :: _, .plain ')' :: after => after
    | _, _ => us
  | _ => us

/-- Whether the text is an acceptable pattern: after an inline group of flags, its elements can
stand in their order, and no group is left open. -/
def accepts (compiled : Text) : Bool :=
  match elements? (skipInlineFlags (Source.ofText compiled)) with
  | none => false
  | some es =>
    match Point.run? {} es with
    | some p => p.groups.isEmpty
    | none => false

end FluentRegex.Pattern
