/-!
# Blank characters

The characters with the Unicode property White_Space, and texts without them at
their ends.
-/

namespace BranchWatch

namespace Blank

def isBlank (c : Char) : Bool :=
  let n := c.toNat
  (0x9 ≤ n && n ≤ 0xd) || n = 0x20 || n = 0x85 || n = 0xa0 || n = 0x1680
    || (0x2000 ≤ n && n ≤ 0x200a) || n = 0x2028 || n = 0x2029 || n = 0x202f || n = 0x205f
    || n = 0x3000

/-- The text without the blanks at its start. -/
def trimStart (s : List Char) : List Char := s.dropWhile isBlank

/-- The text without the blanks at its ends. -/
def trim (s : List Char) : List Char := (trimStart (trimStart s).reverse).reverse

end Blank

end BranchWatch
