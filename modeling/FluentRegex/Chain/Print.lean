import FluentRegex.Chain
import FluentRegex.Chain.Quoted

/-!
The text of a chain on a single line. A call with a callback shows the calls of its body and not
its arguments.
-/

namespace FluentRegex

namespace Chain

/-- The name of the builder at the start of every chain and of every callback body. -/
def root : Text :=
  "exp".toList

/-- What stands before the calls of a callback body. -/
def bodyOpening : Text :=
  "(exp) => \x7b exp".toList

def bodyClosing : Text :=
  " \x7d".toList

end Chain

def Argument.print : Argument → Text
  | number n => Text.numeral n.toNat
  | text t => Chain.quoted t

mutual

/-- The text of a call, without the dot before it. -/
def Call.print : Call → Text
  | .plain o args =>
    o.name ++ ['('] ++ Text.join [',', ' '] (args.map Argument.print) ++ [')']
  | .callback o _ body =>
    o.name ++ ['('] ++ Chain.bodyOpening ++ Chain.printCalls body ++ Chain.bodyClosing ++ [')']

def Chain.printCalls : List Call → Text
  | [] => []
  | c :: cs => ['.'] ++ c.print ++ Chain.printCalls cs

end

namespace Chain

/-- The text of the call that ends a chain and gives its flags. -/
def printDone (flags : Text) : Text :=
  "done(".toList ++ quoted flags ++ [')']

def print (c : Chain) : Text :=
  root ++ printCalls c.calls ++
    match c.flags with
    | none => []
    | some flags => ['.'] ++ printDone flags

end Chain

end FluentRegex
