import FluentRegex.Text

/-!
The 25 characters of the property White_Space, and trimming them off. The zero width space and the
byte order mark are not among them.
-/

namespace FluentRegex.Text

/-- Whether a character has the property White_Space. -/
def isBlank (c : Char) : Bool :=
  let n := c.toNat
  (decide (0x09 ≤ n) && decide (n ≤ 0x0D)) || n == 0x20 || n == 0x85 || n == 0xA0 || n == 0x1680
    || (decide (0x2000 ≤ n) && decide (n ≤ 0x200A)) || n == 0x2028 || n == 0x2029 || n == 0x202F
    || n == 0x205F || n == 0x3000

def trimStart (t : Text) : Text :=
  t.dropWhile isBlank

def trim (t : Text) : Text :=
  (trimStart (trimStart t).reverse).reverse

end FluentRegex.Text
