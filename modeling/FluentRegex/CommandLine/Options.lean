import FluentRegex.Text

/-!
The options of the command line. An option may be given once; one that takes a value takes it from
the same argument, with or without an equals sign, or from the next one, which must not look like
an option. After two dashes every argument is a path.
-/

namespace FluentRegex.CommandLine

/-- When messages are coloured. -/
inductive Color where
  /-- If standard error is a terminal. -/
  | auto
  | always
  | never
  deriving DecidableEq, Repr

structure Options where
  expression : Option Text := none
  paths : List Text := []
  flags : Text := []
  build : Bool := false
  compact : Bool := false
  color : Color := .auto
  deriving DecidableEq, Repr

inductive Switch where
  | build | compact
  deriving DecidableEq, Repr

inductive Setting where
  | expression | flags | color
  deriving DecidableEq, Repr

/-- What an option name stands for. -/
inductive OptionName where
  | switch (s : Switch)
  | setting (s : Setting)
  | help
  deriving DecidableEq, Repr

def OptionName.ofLetter? : Char → Option OptionName
  | 'E' => some (.setting .expression)
  | 'f' => some (.setting .flags)
  | 'b' => some (.switch .build)
  | 'c' => some (.switch .compact)
  | 'h' => some .help
  | _ => none

def OptionName.ofWord? (word : Text) : Option OptionName :=
  if word = "expression".toList then some (.setting .expression)
  else if word = "flags".toList then some (.setting .flags)
  else if word = "color".toList then some (.setting .color)
  else if word = "build".toList then some (.switch .build)
  else if word = "compact".toList then some (.switch .compact)
  else if word = "help".toList then some .help
  else none

inductive UsageError where
  | unknownOption (argument : Text)
  | missingValue (setting : Setting)
  | unwantedValue (argument : Text)
  | repeated (name : OptionName)
  | badColor (value : Text)
  | emptyPath
  deriving DecidableEq, Repr

inductive Interruption where
  /-- The user asks for help. -/
  | help
  | usage (e : UsageError)
  deriving DecidableEq, Repr

structure Given where
  expression : Option Text := none
  paths : List Text := []
  flags : Option Text := none
  color : Option Color := none
  build : Bool := false
  compact : Bool := false
  deriving DecidableEq, Repr

namespace Given

def options (g : Given) : Options where
  expression := g.expression
  paths := g.paths
  flags := g.flags.getD []
  build := g.build
  compact := g.compact
  color := g.color.getD .auto

def turnOn (g : Given) : Switch → Except Interruption Given
  | .build =>
    if g.build then .error (.usage (.repeated (.switch .build))) else .ok { g with build := true }
  | .compact =>
    if g.compact then .error (.usage (.repeated (.switch .compact)))
    else .ok { g with compact := true }

def color? (value : Text) : Option Color :=
  if value = "auto".toList then some .auto
  else if value = "always".toList then some .always
  else if value = "never".toList then some .never
  else none

def set (g : Given) (s : Setting) (value : Text) : Except Interruption Given :=
  match s with
  | .expression =>
    if g.expression.isSome then .error (.usage (.repeated (.setting .expression)))
    else .ok { g with expression := some value }
  | .flags =>
    if g.flags.isSome then .error (.usage (.repeated (.setting .flags)))
    else .ok { g with flags := some value }
  | .color =>
    match color? value with
    | none => .error (.usage (.badColor value))
    | some c =>
      if g.color.isSome then .error (.usage (.repeated (.setting .color)))
      else .ok { g with color := some c }

def addPath (g : Given) (path : Text) : Except Interruption Given :=
  if path.isEmpty then .error (.usage .emptyPath) else .ok { g with paths := g.paths ++ [path] }

/-- The options of a cluster of letters, and the setting whose value is still to come. The letters
after a setting are its value. -/
def addLetters (g : Given) : Text → Except Interruption (Given × Option Setting)
  | [] => .ok (g, none)
  | c :: rest =>
    match OptionName.ofLetter? c with
    | none => .error (.usage (.unknownOption ['-', c]))
    | some .help => .error .help
    | some (.switch s) =>
      match g.turnOn s with
      | .ok g' => addLetters g' rest
      | .error e => .error e
    | some (.setting s) =>
      match rest with
      | [] => .ok (g, some s)
      | '=' :: value => (g.set s value).map fun g' => (g', none)
      | value => (g.set s value).map fun g' => (g', none)

/-- The option of a word, with the value after an equals sign if there is one, and the setting
whose value is still to come. -/
def addWord (g : Given) (word : Text) (value? : Option Text) :
    Except Interruption (Given × Option Setting) :=
  match OptionName.ofWord? word, value? with
  | none, _ => .error (.usage (.unknownOption ('-' :: '-' :: word)))
  | some (.setting s), some value => (g.set s value).map fun g' => (g', none)
  | some (.setting s), none => .ok (g, some s)
  | some _, some _ => .error (.usage (.unwantedValue ('-' :: '-' :: word)))
  | some (.switch s), none => (g.turnOn s).map fun g' => (g', none)
  | some .help, none => .error .help

/-- One more argument that is not the value of a setting, and the setting whose value is still to
come. A single dash is a path. -/
def addArgument (g : Given) : Text → Except Interruption (Given × Option Setting)
  | '-' :: '-' :: option =>
    let word := option.takeWhile (· != '=')
    match option.dropWhile (· != '=') with
    | [] => g.addWord word none
    | _ :: value => g.addWord word (some value)
  | '-' :: c :: letters => g.addLetters (c :: letters)
  | path => (g.addPath path).map fun g' => (g', none)

/-- Whether an argument can be the value of the setting before it. -/
def isValue : Text → Bool
  | '-' :: _ :: _ => false
  | _ => true

def addPaths (g : Given) : List Text → Except Interruption Given
  | [] => .ok g
  | path :: rest =>
    match g.addPath path with
    | .ok g' => addPaths g' rest
    | .error e => .error e

/-- The remaining arguments; the first is the value of the awaited setting, if there is one. -/
def addAll (g : Given) (awaited : Option Setting) : List Text → Except Interruption Given
  | [] =>
    match awaited with
    | none => .ok g
    | some s => .error (.usage (.missingValue s))
  | arg :: rest =>
    match awaited with
    | some s =>
      if isValue arg then
        match g.set s arg with
        | .ok g' => addAll g' none rest
        | .error e => .error e
      else .error (.usage (.missingValue s))
    | none =>
      if arg = ['-', '-'] then g.addPaths rest
      else
        match g.addArgument arg with
        | .ok (g', awaited') => addAll g' awaited' rest
        | .error e => .error e

end Given

def Options.parse (args : List Text) : Except Interruption Options :=
  (Given.addAll {} none args).map Given.options

end FluentRegex.CommandLine
