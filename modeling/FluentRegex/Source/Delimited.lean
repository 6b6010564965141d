import FluentRegex.Source

/-!
Finding where a group or a character set ends. Parentheses inside a set do not count, a set ends
at its first unescaped bracket, and whatever is not closed takes the rest of the source.
-/

namespace FluentRegex.Source

/-- How far a scan for the end of a group has gone in: the number of groups open inside, and
whether it is inside a set. -/
structure Depth where
  groups : Nat := 0
  inSet : Bool := false
  deriving DecidableEq, Repr

/-- The depth after one more unit; none if the unit closes the group that is scanned. -/
def Depth.step? (d : Depth) : SourceUnit → Option Depth
  | .plain '[' => some { d with inSet := true }
  | .plain ']' => some { d with inSet := false }
  | .plain '(' => if d.inSet then some d else some { d with groups := d.groups + 1 }
  | .plain ')' =>
    if d.inSet then some d
    else
      match d.groups with
      | 0 => none
      | n + 1 => some { d with groups := n }
  | _ => some d

/-- The body of the group that ends in the source, and the source after its closing parenthesis. -/
def splitGroupFrom? (d : Depth) : Source → Option (Source × Source)
  | [] => none
  | u :: us =>
    match d.step? u with
    | none => some ([], us)
    | some d' => (splitGroupFrom? d' us).map fun (body, rest) => (u :: body, rest)

/-- The body of an opened group and the source after it, if the group is closed. -/
def splitGroup? (us : Source) : Option (Source × Source) :=
  splitGroupFrom? {} us

/-- The body of an opened group and the source after it. -/
def takeGroup (us : Source) : Source × Source :=
  (splitGroup? us).getD (us, [])

/-- The body of an opened set and the source after it, if the set is closed. -/
def splitSet? : Source → Option (Source × Source)
  | [] => none
  | u :: us =>
    if u = .plain ']' then some ([], us)
    else (splitSet? us).map fun (body, rest) => (u :: body, rest)

def takeSet (us : Source) : Source × Source :=
  (splitSet? us).getD (us, [])

theorem Depth.eq_of_step? {d : Depth} {u : SourceUnit} (h : d.step? u = none) : u = .plain ')' := by
  unfold step? at h
  split at h
  · cases h
  · cases h
  · split at h <;> cases h
  · rfl
  · cases h

theorem eq_of_splitGroupFrom? {d : Depth} {us body rest : Source}
    (h : splitGroupFrom? d us = some (body, rest)) : us = body ++ .plain ')' :: rest := by
  induction us generalizing d body with
  | nil => simp [splitGroupFrom?] at h
  | cons u us ih =>
    rw [splitGroupFrom?] at h
    split at h
    · next hs =>
      obtain ⟨rfl, rfl⟩ := by simpa using h
      simp [Depth.eq_of_step? hs]
    · simp only [Option.map_eq_some_iff, Prod.mk.injEq] at h
      obtain ⟨_, h', rfl, rfl⟩ := h
      simp [ih h']

theorem eq_of_splitGroup? {us body rest : Source} (h : splitGroup? us = some (body, rest)) :
    us = body ++ .plain ')' :: rest :=
  eq_of_splitGroupFrom? h

/-- A set ends at its first unescaped bracket. -/
theorem splitSet?_eq_some_iff {us body rest : Source} :
    splitSet? us = some (body, rest) ↔
      us = body ++ .plain ']' :: rest ∧ SourceUnit.plain ']' ∉ body := by
  induction us generalizing body with
  | nil => simp [splitSet?]
  | cons u us ih =>
    by_cases hu : u = .plain ']'
    · cases body with
      | nil => simp [splitSet?, hu]
      | cons v body =>
        simp only [splitSet?, hu, if_true, List.cons_append, List.cons.injEq]
        grind
    · cases body with
      | nil => simp [splitSet?, hu]
      | cons v body =>
        simp only [splitSet?, hu, if_false, Option.map_eq_some_iff, Prod.mk.injEq, List.cons.injEq,
          Prod.exists, List.cons_append, List.mem_cons, not_or]
        constructor
        · rintro ⟨b, r, h, ⟨rfl, rfl⟩, rfl⟩
          obtain ⟨rfl, hb⟩ := ih.1 h
          exact ⟨⟨rfl, rfl⟩, Ne.symm hu, hb⟩
        · rintro ⟨⟨rfl, h⟩, _, hb⟩
          exact ⟨body, rest, ih.2 ⟨h, hb⟩, ⟨rfl, rfl⟩, rfl⟩

theorem length_takeGroup_body_le (us : Source) : (takeGroup us).1.length ≤ us.length := by
  unfold takeGroup
  cases h : splitGroup? us with
  | none => simp
  | some r => rw [eq_of_splitGroup? h]; simp

theorem length_takeGroup_rest_le (us : Source) : (takeGroup us).2.length ≤ us.length := by
  unfold takeGroup
  cases h : splitGroup? us with
  | none => simp
  | some r => rw [eq_of_splitGroup? h]; simp; omega

theorem length_takeSet_rest_le (us : Source) : (takeSet us).2.length ≤ us.length := by
  unfold takeSet
  cases h : splitSet? us with
  | none => simp
  | some r => rw [(splitSet?_eq_some_iff.1 h).1]; simp; omega

end FluentRegex.Source
