import FluentRegex.Text

/-!
Pattern source as a sequence of units: an escape pair is one unit, and so is every other
character. A backslash with nothing after it is a plain character. Main statements: spelling the
units of a text out gives the text back, and units of a concatenation are concatenated where the
left side does not end in an unpaired backslash.
-/

namespace FluentRegex

/-- One indivisible piece of pattern source. -/
inductive SourceUnit where
  /-- A character that no backslash stands before. -/
  | plain (c : Char)
  /-- A backslash and the character after it. -/
  | escaped (c : Char)
  deriving DecidableEq, Repr

/-- Pattern source cut into units. -/
abbrev Source := List SourceUnit

namespace SourceUnit

def text : SourceUnit → Text
  | plain c => [c]
  | escaped c => ['\\', c]

/-- The character that a unit stands for or escapes. -/
def char : SourceUnit → Char
  | plain c => c
  | escaped c => c

@[simp] theorem text_plain (c : Char) : (plain c).text = [c] := rfl

@[simp] theorem text_escaped (c : Char) : (escaped c).text = ['\\', c] := rfl

theorem text_ne_nil (u : SourceUnit) : u.text ≠ [] := by
  cases u <;> simp

end SourceUnit

namespace Source

/-- The units of a text, from left to right. -/
def ofText : Text → Source
  | [] => []
  | '\\' :: c :: rest => .escaped c :: ofText rest
  | c :: rest => .plain c :: ofText rest

def text (us : Source) : Text :=
  us.flatMap SourceUnit.text

@[simp] theorem ofText_nil : ofText [] = [] := rfl

@[simp] theorem ofText_backslash (c : Char) (t : Text) :
    ofText ('\\' :: c :: t) = .escaped c :: ofText t := rfl

@[simp] theorem ofText_lone_backslash : ofText ['\\'] = [.plain '\\'] := rfl

theorem ofText_plain {c : Char} (h : c ≠ '\\') (t : Text) :
    ofText (c :: t) = .plain c :: ofText t := by
  rw [ofText]
  intro d rest e _
  exact h e

@[simp] theorem text_nil : text [] = [] := rfl

@[simp] theorem text_cons (u : SourceUnit) (us : Source) : text (u :: us) = u.text ++ text us := rfl

@[simp] theorem text_append (us vs : Source) : text (us ++ vs) = text us ++ text vs := by
  simp [text]

/-- Cutting a text into units loses nothing. -/
@[simp] theorem text_ofText (t : Text) : text (ofText t) = t := by
  fun_induction ofText t with
  | case1 => rfl
  | case2 c rest ih => simp [ih]
  | case3 c rest h ih => simp [ih]

/-- A text that does not end in an unpaired backslash: no unit of it is a plain backslash. -/
def Paired (t : Text) : Prop :=
  SourceUnit.plain '\\' ∉ ofText t

instance (t : Text) : Decidable (Paired t) :=
  inferInstanceAs (Decidable (_ ∉ _))

theorem ofText_append {s : Text} (h : Paired s) (t : Text) :
    ofText (s ++ t) = ofText s ++ ofText t := by
  unfold Paired at h
  fun_induction ofText s with
  | case1 => rfl
  | case2 c rest ih => simp [ih (fun m => h (by simp [m]))]
  | case3 c rest hc ih =>
    have hb : c ≠ '\\' := by
      rintro rfl
      exact h (by simp)
    simp [ofText_plain hb, ih (fun m => h (by simp [m]))]

end Source

end FluentRegex
