/-!
# White Space

A cell of a metrics table is read without the white space around it. The set is
that of the Unicode property `White_Space`, which is wider than the core
library's notion: it has the vertical tab, the form feed, the no-break space
and the spaces of typography.

## Main definitions

* `isBlank`: The characters with the property.
* `trim`: A text without the blanks at its two ends.
-/

namespace CommitRisk

/-- The character has the property `White_Space`. -/
def isBlank (c : Char) : Bool :=
  let n := c.toNat
  (9 ≤ n && n ≤ 13) || n == 0x20 || n == 0x85 || n == 0xa0 || n == 0x1680
    || (0x2000 ≤ n && n ≤ 0x200a) || n == 0x2028 || n == 0x2029 || n == 0x202f
    || n == 0x205f || n == 0x3000

/-- A text without the blanks at its two ends. -/
def trim (text : List Char) : List Char :=
  ((text.dropWhile isBlank).reverse.dropWhile isBlank).reverse

end CommitRisk
