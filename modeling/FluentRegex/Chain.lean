import FluentRegex.Operation
import FluentRegex.Argument

/-!
Chains of calls. A call has arguments, and one that takes a callback also has the calls of its
body; the chain may end in a call that gives the flags.
-/

namespace FluentRegex

inductive Call where
  /-- A call without a callback. -/
  | plain (operation : Operation) (arguments : List Argument)
  /-- A call with a callback, whose calls are the body. -/
  | callback (operation : Operation) (arguments : List Argument) (body : List Call)
  deriving Repr

namespace Call

mutual

def decEq : (c d : Call) → Decidable (c = d)
  | plain o a, plain p b => decidable_of_iff (o = p ∧ a = b) (by simp)
  | callback o a cs, callback p b ds =>
    have := decEqAll cs ds
    decidable_of_iff (o = p ∧ a = b ∧ cs = ds) (by simp)
  | plain _ _, callback _ _ _ => isFalse (by simp)
  | callback _ _ _, plain _ _ => isFalse (by simp)

def decEqAll : (cs ds : List Call) → Decidable (cs = ds)
  | [], [] => isTrue rfl
  | c :: cs, d :: ds =>
    have := decEq c d
    have := decEqAll cs ds
    decidable_of_iff (c = d ∧ cs = ds) (by simp)
  | [], _ :: _ => isFalse (by simp)
  | _ :: _, [] => isFalse (by simp)

end

instance : DecidableEq Call :=
  decEq

def operation : Call → Operation
  | plain o _ => o
  | callback o _ _ => o

/-- The arguments other than the callback. -/
def arguments : Call → List Argument
  | plain _ args => args
  | callback _ args _ => args

def body? : Call → Option (List Call)
  | plain _ _ => none
  | callback _ _ body => some body

def ofParts (o : Operation) (args : List Argument) : Option (List Call) → Call
  | none => plain o args
  | some body => callback o args body

end Call

/-- A chain of calls. The flags are absent when no `done` ends the chain; they are any text,
checked only when a pattern is made. -/
structure Chain where
  calls : List Call
  flags : Option Text := none
  deriving DecidableEq, Repr

end FluentRegex
