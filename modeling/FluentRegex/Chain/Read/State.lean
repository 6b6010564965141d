import FluentRegex.Chain
import FluentRegex.Chain.Read.Error

/-!
The states of the reader of chains, and how one lexeme leads from a state to the next. A state
says what is looked for and keeps the calls that are still open, so that an error is always at the
lexeme just taken, or at the start of a name that turns out to be of no operation.

A chain starts with any name. Each call is a dot, a name that may have dots in it, and arguments
between parentheses; one of them may be a callback, with or without braces. Flags and a semicolon
may end it.
-/

namespace FluentRegex.Chain

/-- A call whose arguments are being read, with the calls before it in its list. -/
structure OpenCall where
  before : List Call
  operation : Operation
  arguments : List Argument
  deriving Repr

/-- The list of calls once the open call is complete, with its callback if it has one. -/
def OpenCall.close (c : OpenCall) (body : Option (List Call)) : List Call :=
  c.before ++ [Call.ofParts c.operation c.arguments body]

def OpenCall.addArgument (c : OpenCall) (a : Argument) : OpenCall :=
  { c with arguments := c.arguments ++ [a] }

/-- A callback whose body is being read: whether the body is in braces, and the call it belongs
to. -/
structure Frame where
  braced : Bool
  call : OpenCall
  deriving Repr

/-- The callbacks around a point of the chain, the innermost first. -/
abbrev Nesting := List Frame

/-- What has been read, and what may follow. -/
inductive State where
  /-- The name that starts a chain or a body is next. -/
  | root (nesting : Nesting)
  /-- The same, after `return`. -/
  | returned (nesting : Nesting)
  /-- A call, or the end of the list, is next. -/
  | calls (nesting : Nesting) (calls : List Call)
  /-- The first part of a name is next. -/
  | name (nesting : Nesting) (calls : List Call)
  /-- Another part of a name is next; the name started at the place. -/
  | namePart (nesting : Nesting) (calls : List Call) (place : Text) (name : Text)
  /-- A dot in a name, or the arguments of the call, are next. -/
  | nameEnd (nesting : Nesting) (calls : List Call) (place : Text) (name : Text)
  /-- The flags, or the end of the call that gives none, are next. -/
  | flags (calls : List Call)
  /-- The end of the call that gives the flags is next. -/
  | flagsEnd (calls : List Call) (flags : Text)
  /-- Only a semicolon may follow. -/
  | finished (chain : Chain)
  /-- Nothing may follow. -/
  | terminated (chain : Chain)
  /-- An argument, or the end of the arguments, is next; there may be a callback already. -/
  | argument (nesting : Nesting) (call : OpenCall) (body : Option (List Call))
  /-- A comma, or the end of the arguments, is next. -/
  | separator (nesting : Nesting) (call : OpenCall) (body : Option (List Call))
  /-- The parameter of a callback is next, after its parenthesis. -/
  | parameter (nesting : Nesting) (call : OpenCall)
  /-- The parenthesis after the parameter of a callback is next. -/
  | parameterEnd (nesting : Nesting) (call : OpenCall)
  /-- The arrow of a callback is next. -/
  | arrow (nesting : Nesting) (call : OpenCall)
  /-- The body of a callback is next. -/
  | callback (nesting : Nesting) (call : OpenCall)
  /-- The brace after the body of a callback is next. -/
  | callbackEnd (nesting : Nesting) (call : OpenCall) (body : List Call)
  deriving Repr

namespace State

def start : State :=
  root []

/-- The state after a lexeme where an argument has ended. -/
def stepSeparator (ns : Nesting) (c : OpenCall) (body : Option (List Call)) (place : Text) :
    Lexeme → Except (ReadError Text) State
  | .comma => .ok (argument ns c body)
  | .rightParen => .ok (calls ns (c.close body))
  | _ => .error (.expected .commaOrParen place)

/-- The state after a lexeme that is no dot where a list of calls may end. -/
def stepEnd (cs : List Call) (place : Text) : Nesting → Lexeme → Except (ReadError Text) State
  | [], .semicolon => .ok (terminated ⟨cs, none⟩)
  | [], _ => .error (.trailing place)
  | ⟨true, c⟩ :: ns, .semicolon => .ok (callbackEnd ns c cs)
  | ⟨true, c⟩ :: ns, .rightBrace => .ok (separator ns c (some cs))
  | ⟨true, _⟩ :: _, _ => .error (.expected .rightBrace place)
  | ⟨false, c⟩ :: ns, l => stepSeparator ns c (some cs) place l

/-- The state after the parenthesis that follows a name, which started at the place. -/
def stepOpen (ns : Nesting) (cs : List Call) (place : Text) (name : Text) :
    Except (ReadError Text) State :=
  if name = "done".toList then
    if ns.isEmpty then .ok (flags cs) else .error (.nestedDone place)
  else
    match Operation.ofName? name with
    | some o => .ok (argument ns ⟨cs, o, []⟩ none)
    | none => .error (.unknownOperation name place)

/-- The state after a lexeme where an argument may start. A second callback is no argument. -/
def stepArgument (ns : Nesting) (c : OpenCall) (place : Text) :
    Option (List Call) → Lexeme → Except (ReadError Text) State
  | body, .rightParen => .ok (calls ns (c.close body))
  | body, .number n => .ok (separator ns (c.addArgument (.number n)) body)
  | body, .text t => .ok (separator ns (c.addArgument (.text t)) body)
  | none, .leftParen => .ok (parameter ns c)
  | none, .name _ => .ok (arrow ns c)
  | _, _ => .error (.expected .argument place)

def step (s : State) (place : Text) (l : Lexeme) : Except (ReadError Text) State :=
  match s, l with
  | root (⟨true, c⟩ :: ns), .name t =>
    if t = "return".toList then .ok (returned (⟨true, c⟩ :: ns))
    else .ok (calls (⟨true, c⟩ :: ns) [])
  | root ns, .name _ => .ok (calls ns [])
  | root _, _ => .error (.expected .root place)
  | returned ns, .name _ => .ok (calls ns [])
  | returned _, _ => .error (.expected .root place)
  | calls ns cs, .dot => .ok (name ns cs)
  | calls ns cs, l => stepEnd cs place ns l
  | name ns cs, .name t => .ok (nameEnd ns cs place t)
  | name _ _, _ => .error (.expected .operation place)
  | namePart ns cs first t, .name u => .ok (nameEnd ns cs first (t ++ '.' :: u))
  | namePart _ _ _ _, _ => .error (.expected .operation place)
  | nameEnd ns cs first t, .dot => .ok (namePart ns cs first t)
  | nameEnd ns cs first t, .leftParen => stepOpen ns cs first t
  | nameEnd _ _ _ _, _ => .error (.expected .leftParen place)
  | flags cs, .rightParen => .ok (finished ⟨cs, some []⟩)
  | flags cs, .text t => .ok (flagsEnd cs t)
  | flags _, _ => .error (.expected .flagsOrParen place)
  | flagsEnd cs t, .rightParen => .ok (finished ⟨cs, some t⟩)
  | flagsEnd _ _, _ => .error (.expected .rightParen place)
  | finished c, .semicolon => .ok (terminated c)
  | finished _, _ => .error (.trailing place)
  | terminated _, _ => .error (.trailing place)
  | argument ns c body, l => stepArgument ns c place body l
  | separator ns c body, l => stepSeparator ns c body place l
  | parameter ns c, .name _ => .ok (parameterEnd ns c)
  | parameter _ _, _ => .error (.expected .parameter place)
  | parameterEnd ns c, .rightParen => .ok (arrow ns c)
  | parameterEnd _ _, _ => .error (.expected .rightParen place)
  | arrow ns c, .arrow => .ok (callback ns c)
  | arrow _ _, _ => .error (.expected .arrow place)
  | callback ns c, .leftBrace => .ok (root (⟨true, c⟩ :: ns))
  | callback ns c, .name _ => .ok (calls (⟨false, c⟩ :: ns) [])
  | callback _ _, _ => .error (.expected .root place)
  | callbackEnd ns c cs, .rightBrace => .ok (separator ns c (some cs))
  | callbackEnd _ _ _, _ => .error (.expected .rightBrace place)

/-- The state after lexemes in order, up to the first that cannot stand where it does. -/
def run (s : State) : List Located → Except (ReadError Text) State
  | [] => .ok s
  | l :: ls =>
    match s.step l.place l.lexeme with
    | .ok s' => run s' ls
    | .error e => .error e

/-- The chain that has been read when the text ends in this state, or what is looked for instead. -/
def finish : State → Except Expectation Chain
  | calls [] cs => .ok ⟨cs, none⟩
  | finished c | terminated c => .ok c
  | root _ | returned _ | callback _ _ => .error .root
  | name _ _ | namePart _ _ _ _ => .error .operation
  | nameEnd _ _ _ _ => .error .leftParen
  | flags _ => .error .flagsOrParen
  | flagsEnd _ _ | parameterEnd _ _ => .error .rightParen
  | argument _ _ _ => .error .argumentOrParen
  | calls (⟨false, _⟩ :: _) _ | separator _ _ _ => .error .commaOrParen
  | parameter _ _ => .error .parameter
  | arrow _ _ => .error .arrow
  | calls (⟨true, _⟩ :: _) _ | callbackEnd _ _ _ => .error .rightBrace

@[simp] theorem run_nil (s : State) : s.run [] = .ok s := rfl

theorem run_cons (s : State) (l : Located) (ls : List Located) :
    s.run (l :: ls) =
      match s.step l.place l.lexeme with
      | .ok s' => s'.run ls
      | .error e => .error e := rfl

theorem run_append (s : State) (ls ms : List Located) :
    s.run (ls ++ ms) =
      match s.run ls with
      | .ok s' => s'.run ms
      | .error e => .error e := by
  induction ls generalizing s with
  | nil => rfl
  | cons l ls ih =>
    rw [List.cons_append, run_cons, run_cons]
    cases s.step l.place l.lexeme with
    | ok s' => exact ih s'
    | error e => rfl

end State

end FluentRegex.Chain
