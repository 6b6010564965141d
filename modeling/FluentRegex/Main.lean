import FluentRegex.CommandLine.Run

/-!
The program: it reads arguments, files and standard input, and writes what the run gives.
-/

namespace FluentRegex.CommandLine

def help : String :=
  "Turn patterns into readable builder chains, or chains back into patterns.\n\n" ++
  "Usage: fluent-regex [OPTIONS] [PATHS]...\n\n" ++
  "  -E, --expression <TEXT>  a pattern, or with --build a chain\n" ++
  "  -f, --flags <FLAGS>      flags for bare pattern sources\n" ++
  "  -b, --build              read chains and print the patterns they build\n" ++
  "  -c, --compact            print each chain on a single line\n" ++
  "      --color <WHEN>       auto, always or never\n" ++
  "  -h, --help               print this help\n"

def UsageError.message : UsageError → String
  | unknownOption arg => "unknown option " ++ String.ofList arg
  | missingValue _ => "an option lacks its value"
  | unwantedValue arg => String.ofList arg ++ " takes no value"
  | repeated _ => "an option is given twice"
  | badColor value => "no such colouring: " ++ String.ofList value
  | emptyPath => "a path is empty"

def readFile? (path : Text) : IO (Option Text) := do
  try
    return some (← IO.FS.readFile (String.ofList path)).toList
  catch _ =>
    return none

def readInput? : IO (Option Text) := do
  let bytes ← (← IO.getStdin).readBinToEnd
  return (String.fromUTF8? bytes).map String.toList

def execute (o : Options) : IO UInt32 := do
  let terminal ← (← IO.getStderr).isTty
  let files ← if o.expression.isSome then pure [] else
    o.paths.mapM fun p => return (p, ← readFile? p)
  let input ← if o.expression.isSome || !o.paths.isEmpty then pure none else readInput?
  let outcome := run o (o.color.enabled terminal) (fun p => (files.lookup p).join) input
  (← IO.getStdout).putStr (String.ofList outcome.output)
  (← IO.getStderr).putStr (String.ofList outcome.errors)
  return if outcome.success then 0 else 1

end FluentRegex.CommandLine

/-- The exit code is 0 when everything went well, 1 when some input failed, and 2 when the
arguments make no sense. -/
def main (args : List String) : IO UInt32 := do
  match FluentRegex.CommandLine.Options.parse (args.map String.toList) with
  | .ok o => FluentRegex.CommandLine.execute o
  | .error .help =>
    (← IO.getStdout).putStr FluentRegex.CommandLine.help
    return 0
  | .error (.usage e) =>
    (← IO.getStderr).putStrLn ("error: " ++ e.message)
    return 2
