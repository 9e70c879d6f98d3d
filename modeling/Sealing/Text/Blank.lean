/-!
# White space

The characters with the white-space property, and the removal of those around a text. This is a
larger class than the ASCII blanks: it has the no-break space, the spaces of fixed width, the line
and paragraph separators and the ideographic space.
-/

namespace Sealing.Text

/-- Whether a character is white space. -/
def isBlank (c : Char) : Bool :=
  let n := c.toNat
  (0x9 ≤ n && n ≤ 0xD) || n = 0x20 || n = 0x85 || n = 0xA0 || n = 0x1680 ||
    (0x2000 ≤ n && n ≤ 0x200A) || n = 0x2028 || n = 0x2029 || n = 0x202F || n = 0x205F || n = 0x3000

/-- A list of characters without the white space at its ends. -/
def trimList (cs : List Char) : List Char :=
  ((cs.dropWhile isBlank).reverse.dropWhile isBlank).reverse

/-- A text without the white space at its ends. -/
def trim (s : String) : String := String.ofList (trimList s.toList)

/-- Whether a text is empty or all white space. -/
def isBlankText (s : String) : Bool := s.toList.all isBlank

/-- A letter A to Z in lower case, and any other character as it is. -/
def lowerAscii (c : Char) : Char := if 'A' ≤ c ∧ c ≤ 'Z' then Char.ofNat (c.toNat + 32) else c

/-- A text with the letters A to Z in lower case. -/
def lowerAsciiText (s : String) : String := String.ofList (s.toList.map lowerAscii)

end Sealing.Text
