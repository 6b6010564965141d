import FluentRegex.Text

/-!
Quoted texts in chains. They are written between double quotes, with the quote, the backslash, the
line feed, the tab and the carriage return escaped; they are read between any of three quotes.
-/

namespace FluentRegex.Chain

def quotedChar (c : Char) : Text :=
  if c = '\\' then ['\\', '\\']
  else if c = '"' then ['\\', '"']
  else if c = '\n' then ['\\', 'n']
  else if c = '\t' then ['\\', 't']
  else if c = '\r' then ['\\', 'r']
  else [c]

def quoted (t : Text) : Text :=
  ['"'] ++ t.flatMap quotedChar ++ ['"']

def isQuote (c : Char) : Bool :=
  c == '"' || c == '\'' || c == '`'

/-- The character that a backslash and `c` stand for in quoted text, whatever the quote is. -/
def unescape (c : Char) : Char :=
  if c = 'n' then '\n' else if c = 't' then '\t' else if c = 'r' then '\r' else c

/-- The quoted text up to its closing quote, and the text after that. A backslash takes the
character after it along, be it the quote. -/
def takeQuoted? (quote : Char) : Text → Option (Text × Text)
  | [] => none
  | '\\' :: c :: rest => (takeQuoted? quote rest).map fun (t, after) => (unescape c :: t, after)
  | c :: rest =>
    if c = quote then some ([], rest)
    else (takeQuoted? quote rest).map fun (t, after) => (c :: t, after)

theorem suffix_of_takeQuoted? {quote : Char} {t read rest : Text}
    (h : takeQuoted? quote t = some (read, rest)) : rest <:+ t := by
  fun_induction takeQuoted? quote t generalizing read with
  | case1 => cases h
  | case2 c t ih =>
    simp only [Option.map_eq_some_iff, Prod.mk.injEq, Prod.exists] at h
    obtain ⟨r, _, h, _, rfl⟩ := h
    exact (ih h).trans ⟨['\\', c], rfl⟩
  | case3 => cases h; exact List.suffix_cons _ _
  | case4 c t _ _ ih =>
    simp only [Option.map_eq_some_iff, Prod.mk.injEq, Prod.exists] at h
    obtain ⟨r, _, h, _, rfl⟩ := h
    exact (ih h).trans (List.suffix_cons _ _)

theorem takeQuoted?_quotedChar (c : Char) (t : Text) :
    takeQuoted? '"' (quotedChar c ++ t) =
      (takeQuoted? '"' t).map fun (s, after) => (c :: s, after) := by
  unfold quotedChar
  split
  · simp_all [takeQuoted?, unescape]
  split
  · simp_all [takeQuoted?, unescape]
  split
  · simp_all [takeQuoted?, unescape]
  split
  · simp_all [takeQuoted?, unescape]
  split
  · simp_all [takeQuoted?, unescape]
  · simp_all [takeQuoted?]

theorem takeQuoted?_quoted (t rest : Text) :
    takeQuoted? '"' (t.flatMap quotedChar ++ '"' :: rest) = some (t, rest) := by
  induction t with
  | nil => simp [takeQuoted?]
  | cons c t ih =>
    rw [List.flatMap_cons, List.append_assoc, takeQuoted?_quotedChar, ih]
    rfl

end FluentRegex.Chain
