/-!
# Blank characters

White space in the sense of the Unicode property, and trimming it from both ends of a text.
-/

namespace LockService.Text

/-- Whether a character is white space: the controls from tab to carriage return, the space, the next-line control,
the no-break space and the spaces and separators of the general punctuation and ideographic blocks. -/
def isBlank (c : Char) : Bool :=
  let n := c.toNat
  (9 ≤ n && n ≤ 13) || n == 0x20 || n == 0x85 || n == 0xa0 || n == 0x1680 || (0x2000 ≤ n && n ≤ 0x200a)
    || n == 0x2028 || n == 0x2029 || n == 0x202f || n == 0x205f || n == 0x3000

/-- The text without white space at both ends. -/
def trim (cs : List Char) : List Char := ((cs.dropWhile isBlank).reverse.dropWhile isBlank).reverse

end LockService.Text
