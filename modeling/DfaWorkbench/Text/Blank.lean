/-!
White space: which characters count as blank, and the two ways of dropping them.
-/

namespace DfaWorkbench.Text

/-- The white space characters, and the four separators U+001C to U+001F. -/
def isBlank (c : Char) : Bool :=
  let n := c.toNat
  (0x09 ≤ n && n ≤ 0x0D) || (0x1C ≤ n && n ≤ 0x20) || n == 0x85 || n == 0xA0 || n == 0x1680 ||
    (0x2000 ≤ n && n ≤ 0x200A) || n == 0x2028 || n == 0x2029 || n == 0x202F || n == 0x205F ||
    n == 0x3000

def trim (cs : List Char) : List Char :=
  ((cs.dropWhile isBlank).reverse.dropWhile isBlank).reverse

def withoutBlanks (cs : List Char) : List Char :=
  cs.filter fun c => !isBlank c

def isOneWord (cs : List Char) : Bool :=
  cs.all fun c => !isBlank c

end DfaWorkbench.Text
