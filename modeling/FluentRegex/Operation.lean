import FluentRegex.Token
import FluentRegex.Enclosure

/-!
The operations of a chain, and their names.
-/

namespace FluentRegex

/-- What one call of a chain does. -/
inductive Operation where
  /-- Write a sequence of fixed meaning. -/
  | token (k : Token)
  /-- Write text with its structural characters escaped. -/
  | literal
  /-- Write text as it is. -/
  | quantifiedString
  /-- Write a group or a character set around a body. -/
  | enclose (e : Enclosure)
  deriving DecidableEq, Repr

namespace Operation

def all : List Operation :=
  Token.all.map token ++ Enclosure.all.map enclose ++ [literal, quantifiedString]

def name : Operation → Text
  | token k => k.name
  | literal => "literal".toList
  | quantifiedString => "quantifiedString".toList
  | enclose e => e.name

/-- The operation that a chain calls by this name. The name `done` is none of them. -/
def ofName? (t : Text) : Option Operation :=
  all.find? (·.name == t)

/-- Whether the operation wraps a body and so may be given a callback. -/
def takesBody : Operation → Bool
  | enclose _ => true
  | _ => false

theorem mem_all (o : Operation) : o ∈ all := by
  cases o with
  | token k => cases k <;> decide
  | enclose e =>
    cases e with
    | group g => cases g <;> decide
    | set b => cases b <;> decide
  | _ => decide

/-- Every operation is found under its own name, so no two share one. -/
theorem ofName?_name (o : Operation) : ofName? o.name = some o := by
  cases o with
  | token k => cases k <;> decide
  | enclose e =>
    cases e with
    | group g => cases g <;> decide
    | set b => cases b <;> decide
  | _ => decide

theorem ofName?_done : ofName? "done".toList = none := by
  decide

end Operation

end FluentRegex
