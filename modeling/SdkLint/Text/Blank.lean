/-!
# Blank characters

The characters that count as blank when a text is trimmed or split into words: the Unicode
property White_Space.  Texts are lists of characters here, so that every operation is a short
structural one; `trim` is the operation on strings built from them.
-/

namespace SdkLint.Text

/-- Characters with the Unicode property White_Space. -/
def isBlank (c : Char) : Bool :=
  let n := c.val.toNat
  (0x09 ≤ n && n ≤ 0x0D) || n == 0x20 || n == 0x85 || n == 0xA0 || n == 0x1680 ||
    (0x2000 ≤ n && n ≤ 0x200A) || n == 0x2028 || n == 0x2029 || n == 0x202F || n == 0x205F ||
    n == 0x3000

/-- The text without its leading blank characters. -/
def trimStart (cs : List Char) : List Char :=
  cs.dropWhile isBlank

/-- The text without its trailing blank characters. -/
def trimEnd (cs : List Char) : List Char :=
  (cs.reverse.dropWhile isBlank).reverse

/-- The text without blank characters at either end. -/
def trimBoth (cs : List Char) : List Char :=
  trimEnd (trimStart cs)

/-- The string without blank characters at either end. -/
def trim (s : String) : String :=
  String.ofList (trimBoth s.toList)

/-- The text with every blank character removed. -/
def squeeze (cs : List Char) : List Char :=
  cs.filter fun c => !isBlank c

end SdkLint.Text
