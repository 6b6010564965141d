import FluentRegex.CommandLine.Run

/-!
Batches of inputs. A run is also a program on a console: it prints to two outputs that it only ever
adds to, and it loops over files and over the lines of a file with a flag that remembers whether
something has failed. What such a loop writes is put together from what its items write, so no input
has a part in the result of another.
-/

namespace FluentRegex.CommandLine

/-! ### The console -/

structure Written where
  output : Text := []
  errors : Text := []

def Written.add (w : Written) (r : Outcome) : Written where
  output := w.output ++ r.output
  errors := w.errors ++ r.errors

/-- A program that writes to both outputs. -/
abbrev Console (α : Type) : Type :=
  StateM Written α

namespace Console

def printLine (t : Text) : Console Unit :=
  modify fun w => { w with output := w.output ++ (t ++ ['\n']) }

def printError (t : Text) : Console Unit :=
  modify fun w => { w with errors := w.errors ++ t }

def printReport (colored : Bool) (context message : Text) : Console Unit :=
  printError (errorLabel colored ++ [' '] ++ context ++ ": ".toList ++ message ++ ['\n'])

/-- Print the description of the pattern that a text writes; whether there is one. -/
def describePattern (o : Options) (colored : Bool) (t : Text) : Console Bool := do
  match patternOf o t with
  | .ok p =>
    printLine (if o.compact then p.chain.print else p.describe)
    return true
  | .error e =>
    printReport colored t e.message
    return false

def buildChain (colored : Bool) (t : Text) : Console Bool := do
  match evaluate t with
  | .ok p =>
    printLine p.display
    return true
  | .error e =>
    printReport colored (Text.trim ((Text.lines t).headD [])) e.message
    return false

/-- Solve items one after another; whether all of them could be solved. -/
def solveEach (solve : Text → Console Bool) (items : List Text) : Console Bool := do
  let mut all := true
  for item in items do
    let ok ← solve item
    if !ok then
      all := false
  return all

def patternLines (content : Text) : List Text :=
  (Text.lines content).filter fun l => !isBlankText l

def solveContent (o : Options) (colored : Bool) (content : Text) : Console Bool :=
  if o.build then buildChain colored content
  else solveEach (describePattern o colored) (patternLines content)

/-- Solve standard input, which must not be blank. -/
def solveStandardInput (o : Options) (colored : Bool) (input : Option Text) : Console Bool := do
  match input with
  | some t =>
    if isBlankText t then
      printError solveInput.noInput.errors
      return false
    else solveContent o colored t
  | none =>
    printError solveInput.noInput.errors
    return false

def solvePath (o : Options) (colored : Bool) (readFile : Text → Option Text) (path : Text) :
    Console Bool := do
  match readFile path with
  | some t => solveContent o colored t
  | none =>
    printReport colored path "could not read file".toList
    return false

/-- The program; whether it exits with success. -/
def program (o : Options) (colored : Bool) (readFile : Text → Option Text) (input : Option Text) :
    Console Bool :=
  match o.expression with
  | some t => if o.build then buildChain colored t else describePattern o colored t
  | none =>
    if o.paths.isEmpty then solveStandardInput o colored input
    else solveEach (solvePath o colored readFile) o.paths

end Console

/-! ### What programs on the console write -/

open Console

/-- Whatever has been written before, the program adds this outcome to it. -/
def Emits (c : Console Bool) (r : Outcome) : Prop :=
  ∀ w : Written, c.run w = pure (r.success, w.add r)

variable {o : Options} {colored : Bool}

theorem Written.add_append (w : Written) (r r' : Outcome) :
    w.add (r.append r') = (w.add r).add r' := by
  simp [add, Outcome.append]

theorem Outcome.concat_cons (r : Outcome) (rs : List Outcome) :
    concat (r :: rs) = r.append (concat rs) := rfl

theorem emits_describePattern (t : Text) :
    Emits (describePattern o colored t) (describe o colored t) := by
  intro w
  rw [describePattern, describe]
  cases patternOf o t with
  | ok p => simp [printLine, Outcome.line, Written.add]
  | error e => simp [printReport, printError, report, Written.add]

theorem emits_buildChain (t : Text) : Emits (buildChain colored t) (build colored t) := by
  intro w
  rw [buildChain, build]
  cases evaluate t with
  | ok p => simp [printLine, Outcome.line, Written.add]
  | error e => simp [printReport, printError, report, Written.add]

/-! ### Loops -/

namespace Console

/-- One turn of a loop, given whether everything before it could be solved. -/
def turn (solve : Text → Console Bool) (item : Text) (all : Bool) :
    Console (ForInStep Bool) := do
  let ok ← solve item
  if !ok then return .yield false else return .yield all

theorem solveEach_eq (solve : Text → Console Bool) (items : List Text) :
    solveEach solve items = forIn items true (turn solve) := by
  rw [solveEach]
  exact bind_pure _

end Console

variable {solve : Text → Console Bool} {f : Text → Outcome}

/-- A turn adds the outcome of its item, and lowers the flag if that has failed. -/
theorem run_turn {t : Text} {r : Outcome} (h : Emits (solve t) r) (all : Bool) (w : Written) :
    (turn solve t all).run w = pure (.yield (all && r.success), w.add r) := by
  rw [turn, StateT.run_bind, h w]
  cases r.success <;> simp

/-- The turns of a loop do not see what has been written, so it adds the outcomes of its items in
order, and the flag says whether all of them have succeeded. -/
theorem run_forIn_turn (h : ∀ t, Emits (solve t) (f t)) (items : List Text) (all : Bool)
    (w : Written) :
    (forIn items all (turn solve)).run w =
      pure (all && (Outcome.concat (items.map f)).success,
        w.add (Outcome.concat (items.map f))) := by
  -- A turn changes the flag and what has been written, so both are arbitrary in the induction.
  induction items generalizing all w with
  | nil => simp [Outcome.concat, Written.add]
  | cons t ts ih =>
    rw [List.forIn_cons, StateT.run_bind, run_turn (h t), pure_bind]
    simp only [ih, List.map_cons, Outcome.concat_cons, Written.add_append]
    simp [Outcome.append, Bool.and_assoc]

theorem emits_solveEach (h : ∀ t, Emits (solve t) (f t)) (items : List Text) :
    Emits (solveEach solve items) (.concat (items.map f)) := by
  intro w
  rw [solveEach_eq, run_forIn_turn h, Bool.true_and]

/-! ### Inputs -/

theorem emits_solveContent (t : Text) :
    Emits (solveContent o colored t) (CommandLine.solve o colored t) := by
  rw [solveContent, CommandLine.solve]
  split
  · exact emits_buildChain t
  · exact emits_solveEach emits_describePattern _

theorem emits_solvePath (readFile : Text → Option Text) (path : Text) :
    Emits (solvePath o colored readFile path) (solveFile o colored path (readFile path)) := by
  unfold solvePath solveFile
  cases readFile path with
  | some t => exact emits_solveContent t
  | none =>
    intro w
    simp [printReport, printError, report, Written.add]

theorem emits_solveStandardInput (input : Option Text) :
    Emits (solveStandardInput o colored input) (solveInput o colored input) := by
  have hn : Emits (do printError solveInput.noInput.errors; return false) solveInput.noInput := by
    intro w
    simp [printError, solveInput.noInput, Written.add]
  cases input with
  | some t =>
    rw [solveStandardInput, solveInput]
    split
    · exact hn
    · exact emits_solveContent t
  | none => exact hn

/-- The program writes what the run is said to write, and exits as it does. -/
theorem emits_program (o : Options) (colored : Bool) (readFile : Text → Option Text)
    (input : Option Text) :
    Emits (Console.program o colored readFile input) (run o colored readFile input) := by
  rw [Console.program, run]
  cases o.expression with
  | some t =>
    dsimp only
    rw [solveExpression]
    split
    · exact emits_buildChain t
    · exact emits_describePattern t
  | none =>
    dsimp only
    split
    · exact emits_solveStandardInput input
    · exact emits_solveEach (emits_solvePath readFile) o.paths

/-! ### Independence -/

/-- The outcome is the other outcomes put together: both outputs are theirs, one after another, and
it is a success exactly if each of them is. -/
structure Outcome.Joins (r : Outcome) (rs : List Outcome) : Prop where
  output : r.output = (rs.map Outcome.output).flatten
  errors : r.errors = (rs.map Outcome.errors).flatten
  success : r.success = true ↔ ∀ s ∈ rs, s.success = true

theorem Outcome.joins_concat (rs : List Outcome) : (concat rs).Joins rs := by
  induction rs with
  | nil => exact ⟨rfl, rfl, by simp [concat]⟩
  | cons r rs ih =>
    refine ⟨?_, ?_, ?_⟩
    · simp [concat_cons, append, ih.output]
    · simp [concat_cons, append, ih.errors]
    · simp [concat_cons, append, ih.success]

theorem Outcome.concat_singleton (r : Outcome) : concat [r] = r := by
  simp [concat, append]

/-- A run on one path is the outcome of its file. -/
theorem run_singleton (he : o.expression = none) (readFile : Text → Option Text)
    (input : Option Text) (path : Text) :
    run { o with paths := [path] } colored readFile input =
      solveFile o colored path (readFile path) := by
  rw [run]
  simp only [he, List.isEmpty_cons, List.map_cons, List.map_nil, Outcome.concat_singleton]
  rfl

/-- A run on several paths is the runs on each of them put together, and without building, the run
on a file that can be read is the descriptions of its lines that are not blank put together. This is
what the loops of the program write, whatever fails on the way. -/
theorem run_joins (o : Options) (colored : Bool) (readFile : Text → Option Text)
    (input : Option Text) (he : o.expression = none) (hp : o.paths ≠ []) :
    (run o colored readFile input).Joins
      (o.paths.map fun p => run { o with paths := [p] } colored readFile input) ∧
    (o.build = false → ∀ p t, readFile p = some t →
      (run { o with paths := [p] } colored readFile input).Joins
        ((patternLines t).map (describe o colored))) ∧
    (∀ o', Emits (program o' colored readFile input) (run o' colored readFile input)) ∧
    ∀ l, Emits (describePattern o colored l) (describe o colored l) := by
  refine ⟨?_, fun hb p t ht => ?_, fun o' => emits_program o' colored readFile input,
    emits_describePattern⟩
  · have hr : run o colored readFile input =
        .concat (o.paths.map fun p => solveFile o colored p (readFile p)) := by
      rw [run, he]
      simp [hp]
    simp only [run_singleton he, hr]
    exact Outcome.joins_concat _
  · rw [run_singleton he, ht, solveFile, CommandLine.solve, hb]
    exact Outcome.joins_concat _

/-- Files that cannot be read, before and after one whose lines are rejected for their flags. -/
theorem run_joins_unreadable :
    let o : Options := { paths := ["a".toList, "b".toList, "c".toList], flags := "q".toList }
    let readFile p := if p = "b".toList then some "x\n \ny".toList else none
    let separate p := run { o with paths := [p] } false readFile none
    (run o false readFile none).Joins
      [separate "a".toList, separate "b".toList, separate "c".toList] ∧
    (separate "b".toList).Joins [describe o false "x".toList, describe o false "y".toList] ∧
    (run o false readFile none).errors =
      ("error: a: could not read file\nerror: x: Invalid flag 'q'\n".toList ++
        "error: y: Invalid flag 'q'\nerror: c: could not read file\n".toList) := by
  intro o readFile separate
  obtain ⟨hj, hl, -⟩ := run_joins o false readFile none rfl (by simp [o])
  exact ⟨hj, hl rfl "b".toList _ rfl, rfl⟩

end FluentRegex.CommandLine
