/-!
# Blanks

White space in the sense of Unicode's `White_Space` property, and cutting it off the ends of text.

* `isBlank` — membership;
* `trimStart`, `trim` — text without the blanks before it, and without those on either side.
-/

set_option autoImplicit false

namespace SpotGateway.Text

/-- The code points with the property `White_Space`. -/
def blanks : List Nat :=
  [0x09, 0x0A, 0x0B, 0x0C, 0x0D, 0x20, 0x85, 0xA0, 0x1680, 0x2000, 0x2001, 0x2002, 0x2003, 0x2004,
    0x2005, 0x2006, 0x2007, 0x2008, 0x2009, 0x200A, 0x2028, 0x2029, 0x202F, 0x205F, 0x3000]

def isBlank (c : Char) : Bool := blanks.contains c.toNat

/-- `cs` from its first non-blank on. -/
def trimStart (cs : List Char) : List Char := cs.dropWhile isBlank

/-- `cs` from its first to its last non-blank. -/
def trim (cs : List Char) : List Char := (trimStart (trimStart cs).reverse).reverse

end SpotGateway.Text
