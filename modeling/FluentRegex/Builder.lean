import FluentRegex.Enclosure
import FluentRegex.Pattern
import FluentRegex.Quantifier
import FluentRegex.Token

/-!
The builder of pattern source, which only ever appends, and programs of building steps. A step
that fails leaves the text as it was; a step whose callback fails fails with it, whatever the
callback had written by then.
-/

namespace FluentRegex

inductive BuildError where
  /-- Bounds are put on literal text of more than one atom. -/
  | severalAtoms (text : Text)
  deriving DecidableEq, Repr

def BuildError.message : BuildError → Text
  | severalAtoms text =>
    "literal '".toList ++ text ++ "' has a quantifier but more than one character; ".toList ++
      "use a group or set to repeat more than one character".toList

structure Builder where
  text : Text := []
  deriving DecidableEq, Repr

/-- The inside of a group or a set: text, or a callback that fills a builder of its own. -/
inductive Body where
  | text (t : Text)
  | callback (f : Builder → Except BuildError Builder)

/-- One step of building. The body of a group or a set is given as text or as the steps of a
callback. A token can be given bounds whether or not its operation takes them. -/
inductive Step where
  | token (k : Token) (bounds : Quantifier)
  | quantifiedString (text : Text) (bounds : Quantifier)
  | literal (text : Text) (bounds : Quantifier)
  | enclose (e : Enclosure) (body : Text)
  | encloseSteps (e : Enclosure) (body : List Step)

namespace Builder

def append (b : Builder) (t : Text) : Builder :=
  ⟨b.text ++ t⟩

/-- Append a fragment as it is, with bounds after it. -/
def quantifiedString (b : Builder) (fragment : Text) (bounds : Quantifier) : Builder :=
  b.append (fragment ++ bounds.suffix)

def token (b : Builder) (k : Token) (bounds : Quantifier) : Builder :=
  b.quantifiedString k.sequence bounds

/-- Append literal text with its structural characters escaped. Bounds bind to a single atom, so
longer text cannot have any. -/
def literal (b : Builder) (t : Text) (bounds : Quantifier) : Except BuildError Builder :=
  if !bounds.isNone && decide (1 < Escape.atomCount t) then .error (.severalAtoms t)
  else .ok (b.quantifiedString (Escape.literals t) bounds)

/-- The text that a callback writes on a new builder. -/
def nested (f : Builder → Except BuildError Builder) : Except BuildError Text :=
  (f {}).map text

/-- Append an enclosure around a body. A callback that fails appends nothing. -/
def enclose (b : Builder) (e : Enclosure) : Body → Except BuildError Builder
  | .text t => .ok (b.append (e.wrapText t))
  | .callback f => (nested f).map fun t => b.append (e.wrapNested t)

mutual

def apply (b : Builder) : Step → Except BuildError Builder
  | .token k bounds => .ok (b.token k bounds)
  | .quantifiedString t bounds => .ok (b.quantifiedString t bounds)
  | .literal t bounds => b.literal t bounds
  | .enclose e t => b.enclose e (.text t)
  | .encloseSteps e ss => b.enclose e (.callback fun exp => run exp ss)

/-- The builder after steps in order, up to the first that fails. -/
def run (b : Builder) : List Step → Except BuildError Builder
  | [] => .ok b
  | s :: ss =>
    match b.apply s with
    | .ok b' => run b' ss
    | .error err => .error err

end

/-- The builder after one step, or as it was if the step fails. -/
def attempt (b : Builder) (s : Step) : Builder :=
  match b.apply s with
  | .ok b' => b'
  | .error _ => b

def done (b : Builder) (flags : Text) : Except PatternError Pattern :=
  Pattern.make b.text flags

@[simp] theorem text_append (b : Builder) (t : Text) : (b.append t).text = b.text ++ t := rfl

/-- Of a callback only what it does with a new builder matters. -/
theorem enclose_callback (b : Builder) (e : Enclosure) (f : Builder → Except BuildError Builder) :
    b.enclose e (.callback f) = (f {}).map fun inner => b.append (e.wrapNested inner.text) := by
  rw [enclose, nested]
  cases f {} <;> rfl

theorem apply_encloseSteps (b : Builder) (e : Enclosure) (ss : List Step) :
    b.apply (.encloseSteps e ss) =
      (run {} ss).map fun inner => b.append (e.wrapNested inner.text) := by
  rw [apply, enclose_callback]

@[simp] theorem run_nil (b : Builder) : b.run [] = .ok b := by
  simp [run]

theorem run_cons (b : Builder) (s : Step) (ss : List Step) :
    b.run (s :: ss) =
      match b.apply s with
      | .ok b' => b'.run ss
      | .error err => .error err := by
  rw [run]

theorem run_append (b : Builder) (ss ts : List Step) :
    b.run (ss ++ ts) =
      match b.run ss with
      | .ok b' => b'.run ts
      | .error err => .error err := by
  induction ss generalizing b with
  | nil => simp
  | cons s ss ih =>
    rw [List.cons_append, run_cons, run_cons]
    cases b.apply s with
    | ok b' => exact ih b'
    | error err => rfl

end Builder

end FluentRegex
