import FluentRegex.Chain.Lexeme

/-!
Why a text is not a chain, and the messages that say so. Offsets count UTF-8 bytes.
-/

namespace FluentRegex.Chain

/-- What the reader of a chain looks for at some point. -/
inductive Expectation where
  | root | operation | leftParen | flagsOrParen | rightParen | argumentOrParen | argument
  | parameter | commaOrParen | arrow | rightBrace
  deriving DecidableEq, Repr

def Expectation.text : Expectation → Text
  | root => "a root identifier".toList
  | operation => "an operation name".toList
  | leftParen => "'('".toList
  | flagsOrParen => "flags or ')'".toList
  | rightParen => "')'".toList
  | argumentOrParen => "an argument or ')'".toList
  | argument => "an argument".toList
  | parameter => "a callback parameter".toList
  | commaOrParen => "',' or ')'".toList
  | arrow => "'=>'".toList
  | rightBrace => "'\x7d'".toList

/-- Why a text is not a chain, and where. The reader names a place by the text from there on; the
finished error gives its byte offset. -/
inductive ReadError (Place : Type) where
  /-- Something else stands there, or the text has ended. -/
  | expected (what : Expectation) (place : Place)
  /-- No lexeme starts there. -/
  | unexpected (found : Char) (place : Place)
  /-- The name that starts there is of no operation. -/
  | unknownOperation (name : Text) (place : Place)
  /-- The number there is too large. -/
  | invalidNumber (place : Place)
  /-- The text quoted there is not closed. -/
  | unterminated (place : Place)
  /-- The chain is complete before that. -/
  | trailing (place : Place)
  /-- The flags are given inside a callback. -/
  | nestedDone (place : Place)
  deriving DecidableEq, Repr

namespace ReadError

def map {α β : Type} (f : α → β) : ReadError α → ReadError β
  | expected what place => expected what (f place)
  | unexpected found place => unexpected found (f place)
  | unknownOperation name place => unknownOperation name (f place)
  | invalidNumber place => invalidNumber (f place)
  | unterminated place => unterminated (f place)
  | trailing place => trailing (f place)
  | nestedDone place => nestedDone (f place)

def place {α : Type} : ReadError α → α
  | expected _ place | unexpected _ place | unknownOperation _ place | invalidNumber place
  | unterminated place | trailing place | nestedDone place => place

def atOffset (offset : Nat) : Text :=
  " at offset ".toList ++ Text.numeral offset

def message : ReadError Nat → Text
  | expected what offset => "Expected ".toList ++ what.text ++ atOffset offset
  | unexpected found offset =>
    "Unexpected character '".toList ++ [found] ++ "'".toList ++ atOffset offset
  | unknownOperation name offset =>
    "Unknown operation '".toList ++ name ++ "'".toList ++ atOffset offset
  | invalidNumber offset => "Invalid number".toList ++ atOffset offset
  | unterminated offset => "Unterminated string starting".toList ++ atOffset offset
  | trailing offset => "Unexpected input after the chain".toList ++ atOffset offset
  | nestedDone offset =>
    "'done' cannot be called inside a callback (offset ".toList ++ Text.numeral offset ++ [')']

def ofLexical (place : Text) : LexicalError → ReadError Text
  | .unexpected found => unexpected found place
  | .invalidNumber => invalidNumber place
  | .unterminated => unterminated place

@[simp] theorem place_map {α β : Type} (f : α → β) (e : ReadError α) :
    (e.map f).place = f e.place := by
  cases e <;> rfl

end ReadError

end FluentRegex.Chain
