import FluentRegex.Source

/-!
Capturing groups and the four lookarounds, with what opens them and the operations that write
them.
-/

namespace FluentRegex

inductive Group where
  | capturing | lookahead | negativeLookahead | lookbehind | negativeLookbehind
  deriving DecidableEq, Repr

namespace Group

def all : List Group :=
  [capturing, lookahead, negativeLookahead, lookbehind, negativeLookbehind]

def opener : Group → Text
  | capturing => ['(']
  | lookahead => ['(', '?', '=']
  | negativeLookahead => ['(', '?', '!']
  | lookbehind => ['(', '?', '<', '=']
  | negativeLookbehind => ['(', '?', '<', '!']

def closer : Text :=
  [')']

def name : Group → Text
  | capturing => "group".toList
  | lookahead => "look.ahead".toList
  | negativeLookahead => "negativeLook.ahead".toList
  | lookbehind => "look.behind".toList
  | negativeLookbehind => "negativeLook.behind".toList

def ofName? (t : Text) : Option Group :=
  all.find? (·.name == t)

/-- The group that the source opens, and the source after its opener. The longest opener wins, so
an unknown one such as `(?:` opens a capturing group. -/
def takeOpener? : Source → Option (Group × Source)
  | .plain '(' :: .plain '?' :: .plain '=' :: us => some (lookahead, us)
  | .plain '(' :: .plain '?' :: .plain '!' :: us => some (negativeLookahead, us)
  | .plain '(' :: .plain '?' :: .plain '<' :: .plain '=' :: us => some (lookbehind, us)
  | .plain '(' :: .plain '?' :: .plain '<' :: .plain '!' :: us => some (negativeLookbehind, us)
  | .plain '(' :: us => some (capturing, us)
  | _ => none

def ofOpener? (t : Text) : Option Group :=
  (takeOpener? (Source.ofText t)).map Prod.fst

theorem mem_all (g : Group) : g ∈ all := by
  cases g <;> decide

theorem ofName?_name (g : Group) : ofName? g.name = some g := by
  cases g <;> decide

theorem length_of_takeOpener? {us rest : Source} {g : Group} (h : takeOpener? us = some (g, rest)) :
    rest.length < us.length := by
  unfold takeOpener? at h
  split at h <;> simp at h <;> obtain ⟨_, rfl⟩ := h <;> simp <;> omega

end Group

end FluentRegex
