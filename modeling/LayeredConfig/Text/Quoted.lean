import LayeredConfig.Text.Combining

/-! Quoted text for messages and structure dumps: the text between double
quotes, with the quote, the backslash, NUL, tab, carriage return and line feed
written as two-character escapes, and every character that extends a grapheme
or is not printable written as `\u{...}` with its code point in lowercase hex
without leading zeros. Everything else stands as it is, non-ASCII included. A
single character is quoted the same way between single quotes, where the single
quote is escaped instead of the double one. -/

namespace LayeredConfig

namespace Text

/-- Lowercase hex digits of a number, without leading zeros. -/
def hexDigits (n : Nat) : List Char :=
  Nat.toDigits 16 n

/-- The escaped form of one character, inside a text (where the double quote is
escaped) or alone between single quotes (where the single quote is). -/
def escapeChar (inText : Bool) (c : Char) : List Char :=
  if c = '"' && inText then ['\\', '"']
  else if c.toNat = 39 && !inText then ['\\', c]
  else if c = '\\' then ['\\', '\\']
  else if c.toNat = 0 then ['\\', '0']
  else if c = '\t' then ['\\', 't']
  else if c = '\r' then ['\\', 'r']
  else if c = '\n' then ['\\', 'n']
  else if isGraphemeExtend c || !isPrintable c then
    ['\\', 'u', '\x7b'] ++ hexDigits c.toNat ++ ['\x7d']
  else [c]

def quote (s : String) : String :=
  String.ofList ('"' :: (s.toList.flatMap (escapeChar true) ++ ['"']))

def quoteSingle (c : Char) : String :=
  String.ofList (Char.ofNat 39 :: (escapeChar false c ++ [Char.ofNat 39]))

end Text

end LayeredConfig
