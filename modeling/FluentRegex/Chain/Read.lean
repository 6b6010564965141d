import FluentRegex.Chain.Read.State

/-!
Reading a chain from its text. The lexemes are read in order up to the first that cannot stand
where it does; what is wrong with them comes before what is wrong after them.
-/

namespace FluentRegex.Chain

def ofLexemes (ls : List Located) (ending : Ending) : Except (ReadError Text) Chain :=
  match State.start.run ls with
  | .error e => .error e
  | .ok s =>
    match ending with
    | .fault place e => .error (.ofLexical place e)
    | .complete => s.finish.mapError fun what => .expected what []

/-- The byte offset in `t` of the place from which the text `rest` is left. -/
def offset (t rest : Text) : Nat :=
  Text.byteSize t - Text.byteSize rest

def read (t : Text) : Except (ReadError Nat) Chain :=
  (ofLexemes (lex t).1 (lex t).2).mapError (·.map (offset t))

/-- The offset of a place is the size of what stands before it. -/
theorem offset_append (before rest : Text) :
    offset (before ++ rest) rest = Text.byteSize before := by
  simp [offset]

end FluentRegex.Chain
