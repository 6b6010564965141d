/-!
Text as a list of Unicode scalar values, and its size in UTF-8. Patterns, chains and messages are
all texts; strings appear only where a program meets its input and output.
-/

namespace FluentRegex

abbrev Text := List Char

namespace Text

/-- The number of bytes that the text takes in UTF-8, the unit of offsets in reading errors. -/
def byteSize : Text → Nat
  | [] => 0
  | c :: rest => c.utf8Size + byteSize rest

@[simp] theorem byteSize_nil : byteSize [] = 0 := rfl

@[simp] theorem byteSize_cons (c : Char) (t : Text) :
    byteSize (c :: t) = c.utf8Size + byteSize t := rfl

@[simp] theorem byteSize_append (s t : Text) : byteSize (s ++ t) = byteSize s + byteSize t := by
  induction s with
  | nil => simp
  | cons c s ih => simp [ih, Nat.add_assoc]

/-- The texts in order, with `separator` between each two neighbours. -/
def join (separator : Text) : List Text → Text
  | [] => []
  | [t] => t
  | t :: ts => t ++ separator ++ join separator ts

end Text

end FluentRegex
