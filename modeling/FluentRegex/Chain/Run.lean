import FluentRegex.Builder
import FluentRegex.Chain

/-!
Running a chain: each call becomes a building step once its arguments fit its operation. A
callback is run on a builder of its own.
-/

namespace FluentRegex

inductive CallError where
  /-- The operation takes no callback, and there is one. -/
  | bodyNotTaken (o : Operation)
  /-- The operation takes no arguments, and there are some. -/
  | noArguments (o : Operation) (count : Nat)
  /-- The operation needs text, and a number stands there. -/
  | textExpected (o : Operation) (found : UInt32)
  /-- The operation needs text, and there are no arguments. -/
  | textMissing (o : Operation)
  /-- The operation needs a body, and a number stands there. -/
  | bodyExpected (o : Operation) (found : UInt32)
  /-- The operation needs a body, and there are neither arguments nor a callback. -/
  | bodyMissing (o : Operation)
  /-- The operation needs one body, and there is more than that. -/
  | severalBodies (o : Operation)
  | bounds (e : BoundsError)
  | build (e : BuildError)
  deriving DecidableEq, Repr

def CallError.message : CallError → Text
  | bodyNotTaken o => o.name ++ " does not take a callback".toList
  | noArguments o count => o.name ++ " takes no arguments, got ".toList ++ Text.numeral count
  | textExpected o found => o.name ++ " expects text, got ".toList ++ Text.numeral found.toNat
  | textMissing o => o.name ++ " requires text".toList
  | bodyExpected o found =>
    o.name ++ " expects text or a callback, got ".toList ++ Text.numeral found.toNat
  | bodyMissing o => o.name ++ " requires a string or a callback".toList
  | severalBodies o => o.name ++ " takes a single string or callback".toList
  | bounds e => e.message
  | build e => e.message

namespace Call

def tokenBounds (k : Token) (args : List Argument) : Except CallError Quantifier :=
  if !k.quantifiable && !args.isEmpty then .error (.noArguments (.token k) args.length)
  else (Quantifier.ofArguments args).mapError .bounds

def textBounds (o : Operation) : List Argument → Except CallError (Text × Quantifier)
  | .text t :: args => ((Quantifier.ofArguments args).mapError .bounds).map fun q => (t, q)
  | .number n :: _ => .error (.textExpected o n)
  | [] => .error (.textMissing o)

/-- The body of an enclosure from the arguments of its call. If the call has a callback, its calls
have been run beforehand on a builder of their own, and what they have written is handed over as the
output of a callback, as it is. -/
def bodyOf (e : Enclosure) (args : List Argument) (replayed : Option (Except CallError Builder)) :
    Except CallError Body :=
  match replayed, args with
  | some (.ok inner), [] => .ok (.callback fun exp => .ok (exp.quantifiedString inner.text .none))
  | some (.error err), [] => .error err
  | none, [.text t] => .ok (.text t)
  | none, [.number n] => .error (.bodyExpected (.enclose e) n)
  | none, [] => .error (.bodyMissing (.enclose e))
  | _, _ => .error (.severalBodies (.enclose e))

end Call

namespace Builder

def callEnclosure (b : Builder) (e : Enclosure) (args : List Argument)
    (replayed : Option (Except CallError Builder)) : Except CallError Builder := do
  let body ← Call.bodyOf e args replayed
  (b.enclose e body).mapError .build

def callPlain (b : Builder) (o : Operation) (args : List Argument) : Except CallError Builder :=
  match o with
  | .token k => (Call.tokenBounds k args).map fun q => b.token k q
  | .literal => do
    let (t, q) ← Call.textBounds .literal args
    (b.literal t q).mapError .build
  | .quantifiedString =>
    (Call.textBounds .quantifiedString args).map fun (t, q) => b.quantifiedString t q
  | .enclose e => b.callEnclosure e args none

mutual

def call (b : Builder) : Call → Except CallError Builder
  | .plain o args => b.callPlain o args
  | .callback (.enclose e) args body => b.callEnclosure e args (some (callAll {} body))
  | .callback o _ _ => .error (.bodyNotTaken o)

/-- The builder after calls in order, up to the first that fails. -/
def callAll (b : Builder) : List Call → Except CallError Builder
  | [] => .ok b
  | c :: cs =>
    match b.call c with
    | .ok b' => callAll b' cs
    | .error err => .error err

end

/-- Handing over what calls have written is running them as the callback. -/
theorem callEnclosure_callback (b : Builder) (e : Enclosure) (r : Except CallError Builder) :
    b.callEnclosure e [] (some r) = r.map fun inner => b.append (e.wrapNested inner.text) := by
  cases r with
  | error err => rfl
  | ok inner =>
    have h : b.enclose e (.callback fun exp => .ok (exp.quantifiedString inner.text .none)) =
        .ok (b.append (e.wrapNested inner.text)) := by
      rw [enclose_callback]
      simp [Except.map, quantifiedString, append]
    exact congrArg (Except.mapError CallError.build) h

@[simp] theorem callAll_nil (b : Builder) : b.callAll [] = .ok b := by
  simp [callAll]

theorem callAll_cons (b : Builder) (c : Call) (cs : List Call) :
    b.callAll (c :: cs) =
      match b.call c with
      | .ok b' => b'.callAll cs
      | .error err => .error err := by
  rw [callAll]

end Builder

inductive ChainError where
  | call (e : CallError)
  | pattern (e : PatternError)
  deriving DecidableEq, Repr

def ChainError.message : ChainError → Text
  | call e => e.message
  | pattern e => e.message

/-- The pattern that a chain builds from nothing. A chain without flags is compiled with none. -/
def Chain.toPattern (c : Chain) : Except ChainError Pattern :=
  match Builder.callAll {} c.calls with
  | .error e => .error (.call e)
  | .ok b => (b.done (c.flags.getD [])).mapError .pattern

end FluentRegex
