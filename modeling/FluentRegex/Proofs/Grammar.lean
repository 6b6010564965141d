import FluentRegex.Chain
import FluentRegex.Chain.Lexeme

/-!
The grammar of chains, over lexemes and without a reader. Each relation takes what it derives off
the front of the lexemes and names what is left of them, so that a production is one constructor and
what it derives is a tree in the order of the text.
-/

namespace FluentRegex.Chain

/-- What is listed between the parentheses of a call: an argument, or a callback with its calls. -/
inductive Item where
  | argument (a : Argument)
  | callback (body : List Call)

namespace Item

def argument? : Item → Option Argument
  | argument a => some a
  | callback _ => none

def body? : Item → Option (List Call)
  | argument _ => none
  | callback body => some body

def arguments (is : List Item) : List Argument :=
  is.filterMap argument?

def bodies (is : List Item) : List (List Call) :=
  is.filterMap body?

@[simp] theorem arguments_nil : arguments [] = [] := rfl

@[simp] theorem arguments_argument (a : Argument) (is : List Item) :
    arguments (argument a :: is) = a :: arguments is := rfl

@[simp] theorem arguments_callback (body : List Call) (is : List Item) :
    arguments (callback body :: is) = arguments is := rfl

@[simp] theorem bodies_nil : bodies [] = [] := rfl

@[simp] theorem bodies_argument (a : Argument) (is : List Item) :
    bodies (argument a :: is) = bodies is := rfl

@[simp] theorem bodies_callback (body : List Call) (is : List Item) :
    bodies (callback body :: is) = body :: bodies is := rfl

end Item

/-- The lexeme may stand before the rest or not. -/
def Optionally (l : Lexeme) (ls rest : List Lexeme) : Prop :=
  ls = rest ∨ ls = l :: rest

/-- A name: parts with dots between them. -/
inductive DerivesName : List Lexeme → Text → List Lexeme → Prop
  | part (t : Text) (rest : List Lexeme) : DerivesName (.name t :: rest) t rest
  | dotted (t : Text) {u : Text} {ls rest : List Lexeme} (h : DerivesName ls u rest) :
      DerivesName (.name t :: .dot :: ls) (t ++ '.' :: u) rest

/-- What a body in braces starts with: a name other than `return`, or any name after `return`. -/
inductive DerivesRoot : List Lexeme → List Lexeme → Prop
  | name {t : Text} (h : t ≠ "return".toList) (rest : List Lexeme) :
      DerivesRoot (.name t :: rest) rest
  | returned (t : Text) (rest : List Lexeme) :
      DerivesRoot (.name "return".toList :: .name t :: rest) rest

mutual

/-- A call: a dot, the name of an operation other than `done`, and items between parentheses, of
which at most one is a callback. -/
inductive DerivesCall : List Lexeme → Call → List Lexeme → Prop
  | call {ls ms rest : List Lexeme} {t : Text} {o : Operation} {is : List Item}
      (hn : DerivesName ls t (.leftParen :: ms)) (hd : t ≠ "done".toList)
      (ho : Operation.ofName? t = some o) (hi : DerivesArguments ms is (.rightParen :: rest))
      (hb : (Item.bodies is).length ≤ 1) :
      DerivesCall (.dot :: ls) (Call.ofParts o (Item.arguments is) (Item.bodies is).head?) rest

inductive DerivesCalls : List Lexeme → List Call → List Lexeme → Prop
  | nil (rest : List Lexeme) : DerivesCalls rest [] rest
  | cons {ls ms rest : List Lexeme} {c : Call} {cs : List Call} (h : DerivesCall ls c ms)
      (h' : DerivesCalls ms cs rest) : DerivesCalls ls (c :: cs) rest

/-- No items, or some and then a comma at will. -/
inductive DerivesArguments : List Lexeme → List Item → List Lexeme → Prop
  | none (rest : List Lexeme) : DerivesArguments rest [] rest
  | some {ls ms rest : List Lexeme} {is : List Item} (h : DerivesItems ls is ms)
      (hc : Optionally .comma ms rest) : DerivesArguments ls is rest

/-- One or more items with commas between them. -/
inductive DerivesItems : List Lexeme → List Item → List Lexeme → Prop
  | one {ls rest : List Lexeme} {i : Item} (h : DerivesItem ls i rest) : DerivesItems ls [i] rest
  | cons {ls ms rest : List Lexeme} {i : Item} {is : List Item}
      (h : DerivesItem ls i (.comma :: ms)) (h' : DerivesItems ms is rest) :
      DerivesItems ls (i :: is) rest

/-- A number, a text, or a callback with its parameter between parentheses or bare. -/
inductive DerivesItem : List Lexeme → Item → List Lexeme → Prop
  | number (n : UInt32) (rest : List Lexeme) :
      DerivesItem (.number n :: rest) (.argument (.number n)) rest
  | text (t : Text) (rest : List Lexeme) : DerivesItem (.text t :: rest) (.argument (.text t)) rest
  | parenthesised (t : Text) {ls rest : List Lexeme} {body : List Call}
      (h : DerivesBody ls body rest) :
      DerivesItem (.leftParen :: .name t :: .rightParen :: .arrow :: ls) (.callback body) rest
  | bare (t : Text) {ls rest : List Lexeme} {body : List Call} (h : DerivesBody ls body rest) :
      DerivesItem (.name t :: .arrow :: ls) (.callback body) rest

/-- The body of a callback: a root and calls, in braces with a semicolon at will, or as they are. -/
inductive DerivesBody : List Lexeme → List Call → List Lexeme → Prop
  | braced {ls ms os rest : List Lexeme} {cs : List Call} (hr : DerivesRoot ls ms)
      (hc : DerivesCalls ms cs os) (hs : Optionally .semicolon os (.rightBrace :: rest)) :
      DerivesBody (.leftBrace :: ls) cs rest
  | bare (t : Text) {ls rest : List Lexeme} {cs : List Call} (hc : DerivesCalls ls cs rest) :
      DerivesBody (.name t :: ls) cs rest

end

/-- The flags of the call that ends a chain. They are empty when they are left out. -/
inductive DerivesFlags : List Lexeme → Text → List Lexeme → Prop
  | none (rest : List Lexeme) : DerivesFlags rest [] rest
  | some (t : Text) (rest : List Lexeme) : DerivesFlags (.text t :: rest) t rest

/-- The call of `done` that may end a chain, and its flags. -/
inductive DerivesDone : List Lexeme → Option Text → List Lexeme → Prop
  | absent (rest : List Lexeme) : DerivesDone rest none rest
  | done {ls rest : List Lexeme} {flags : Text} (h : DerivesFlags ls flags (.rightParen :: rest)) :
      DerivesDone (.dot :: .name "done".toList :: .leftParen :: ls) (some flags) rest

/-- A whole chain: a root, calls, `done` at will and a semicolon at will. -/
inductive DerivesChain : List Lexeme → Chain → Prop
  | chain (t : Text) {ls ms os : List Lexeme} {cs : List Call} {flags : Option Text}
      (hc : DerivesCalls ls cs ms) (hd : DerivesDone ms flags os)
      (hs : Optionally .semicolon os []) : DerivesChain (.name t :: ls) ⟨cs, flags⟩

end FluentRegex.Chain
