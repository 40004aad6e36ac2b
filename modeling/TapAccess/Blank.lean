/-!
# Blanks around a text

The characters with the property White_Space, and a text without those at its ends.
-/

namespace TapAccess.Blank

/-- The ranges of characters with the property White_Space. -/
def ranges : List (Nat × Nat) := [
  (0x0009, 0x000D), (0x0020, 0x0020), (0x0085, 0x0085), (0x00A0, 0x00A0), (0x1680, 0x1680),
  (0x2000, 0x200A), (0x2028, 0x2029), (0x202F, 0x202F), (0x205F, 0x205F), (0x3000, 0x3000)]

def isBlank (c : Char) : Bool := ranges.any fun range => range.1 ≤ c.toNat && c.toNat ≤ range.2

def trimEnd (text : List Char) : List Char := (text.reverse.dropWhile isBlank).reverse

/-- The text without the blanks at either end. -/
def trim (text : List Char) : List Char := trimEnd (text.dropWhile isBlank)

end TapAccess.Blank
