/-! Blank characters: the code points with the Unicode White_Space property,
tab to carriage return, space, next line, no-break space, ogham space mark, the
spaces from en quad to hair space, the line and paragraph separators, the narrow
no-break space, the medium mathematical space and the ideographic space. The
zero width space is not one of them. -/

namespace LayeredConfig

namespace Text

def isBlank (c : Char) : Bool :=
  let n := c.toNat
  (9 ≤ n && n ≤ 13) || n == 32 || n == 0x85 || n == 0xA0 || n == 0x1680 ||
    (0x2000 ≤ n && n ≤ 0x200A) || n == 0x2028 || n == 0x2029 || n == 0x202F ||
    n == 0x205F || n == 0x3000

def trimStartBlank (s : List Char) : List Char := s.dropWhile isBlank

/-- Whether a character is an ASCII blank: space, tab, line feed, form feed or
carriage return (the vertical tab is not one). -/
def isAsciiBlank (c : Char) : Bool :=
  c == ' ' || c == '\t' || c == '\n' || c.toNat == 12 || c == '\r'

end Text

end LayeredConfig
