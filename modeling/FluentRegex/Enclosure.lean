import FluentRegex.Group
import FluentRegex.Escape

/-!
Groups and character sets: what stands around a body, and how the body is escaped before it is put
there. A body given as text and one built by a callback are escaped differently.
-/

namespace FluentRegex

inductive Enclosure where
  | group (g : Group)
  | set (negated : Bool)
  deriving DecidableEq, Repr

namespace Enclosure

def all : List Enclosure :=
  Group.all.map group ++ [set false, set true]

def name : Enclosure → Text
  | group g => g.name
  | set false => "set".toList
  | set true => "negatedSet".toList

def opener : Enclosure → Text
  | group g => g.opener
  | set false => ['[']
  | set true => ['[', '^']

def closer : Enclosure → Text
  | group _ => Group.closer
  | set _ => [']']

/-- A body given as text, escaped for this enclosure. -/
def escapeText : Enclosure → Text → Text
  | group _, body => Escape.groupHead (Escape.literals body)
  | set _, body => Escape.set false body

/-- A body built by a callback, escaped for this enclosure. -/
def escapeNested : Enclosure → Text → Text
  | group _, body => Escape.groupHead body
  | set _, body => Escape.set true body

def wrapText (e : Enclosure) (body : Text) : Text :=
  e.opener ++ e.escapeText body ++ e.closer

def wrapNested (e : Enclosure) (body : Text) : Text :=
  e.opener ++ e.escapeNested body ++ e.closer

end Enclosure

end FluentRegex
