/-!
# Blanks

* `isBlank` — the 25 characters with the property White_Space
* `isBlankText` — a text of nothing else, the empty one included
-/

namespace CellWorld.Text

/-- Whether `c` is one of `U+0009` to `U+000D`, the space, `U+0085`, `U+00A0`, or one of the wide
and thin spaces and separators from `U+1680` on. -/
def isBlank (c : Char) : Bool :=
  let n := c.toNat
  (decide (0x09 ≤ n) && decide (n ≤ 0x0D)) || n == 0x20 || n == 0x85 || n == 0xA0 || n == 0x1680 ||
    (decide (0x2000 ≤ n) && decide (n ≤ 0x200A)) || n == 0x2028 || n == 0x2029 || n == 0x202F ||
    n == 0x205F || n == 0x3000

def isBlankText (s : String) : Bool := s.toList.all isBlank

end CellWorld.Text
