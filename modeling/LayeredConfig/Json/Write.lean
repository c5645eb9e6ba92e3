import LayeredConfig.Tree.Basic
import LayeredConfig.Number.Shortest

/-! JSON text of trees. A string is written between double quotes with the quote,
the backslash and the control characters below U+0020 escaped: the short forms
`\b \f \n \r \t` where they exist and `\u00xx` with lowercase hex digits
otherwise; every other character, non-ASCII included, is written as it is.
Integers are written in decimal and doubles by their shortest digits in the
exponent layout, so a double always shows a point or an exponent.

The compact form has no blanks at all. The pretty form puts every array item and
object field on a line of its own, indented by two spaces per level, with `": "`
after a key; empty arrays and objects stay `[]` and `{}`. -/

namespace LayeredConfig

namespace Json

def hexDigit (n : Nat) : Char :=
  if n < 10 then Char.ofNat (48 + n) else Char.ofNat (87 + n)

def escapeChar (c : Char) : List Char :=
  if c = '"' then ['\\', '"']
  else if c = '\\' then ['\\', '\\']
  else if c = '\n' then ['\\', 'n']
  else if c = '\r' then ['\\', 'r']
  else if c = '\t' then ['\\', 't']
  else if c.toNat = 8 then ['\\', 'b']
  else if c.toNat = 12 then ['\\', 'f']
  else if c.toNat < 32 then ['\\', 'u', '0', '0', hexDigit (c.toNat / 16), hexDigit (c.toNat % 16)]
  else [c]

def quote (s : String) : String :=
  String.ofList ('"' :: (s.toList.flatMap escapeChar ++ ['"']))

def numberText : Number → String
  | .int i => toString i
  | .float x => x.toExponentText

end Json

namespace Value

mutual

def toCompact : Value → String
  | .null => "null"
  | .bool b => if b then "true" else "false"
  | .num n => Json.numberText n
  | .str s => Json.quote s
  | .arr items => "[" ++ itemsCompact items ++ "]"
  | .obj fields => "\x7b" ++ fieldsCompact fields ++ "\x7d"

def itemsCompact : List Value → String
  | [] => ""
  | [v] => toCompact v
  | v :: rest => toCompact v ++ "," ++ itemsCompact rest

def fieldsCompact : List (String × Value) → String
  | [] => ""
  | [(k, v)] => Json.quote k ++ ":" ++ toCompact v
  | (k, v) :: rest => Json.quote k ++ ":" ++ toCompact v ++ "," ++ fieldsCompact rest

end

def indent (level : Nat) : String := String.ofList (List.replicate (2 * level) ' ')

mutual

/-- Pretty JSON text at a nesting level (the level of the line the value starts on). -/
def toPrettyAt (level : Nat) : Value → String
  | .arr [] => "[]"
  | .obj [] => "\x7b\x7d"
  | .arr items => "[\n" ++ itemsPretty (level + 1) items ++ "\n" ++ indent level ++ "]"
  | .obj fields => "\x7b\n" ++ fieldsPretty (level + 1) fields ++ "\n" ++ indent level ++ "\x7d"
  | v => toCompact v

def itemsPretty (level : Nat) : List Value → String
  | [] => ""
  | [v] => indent level ++ toPrettyAt level v
  | v :: rest => indent level ++ toPrettyAt level v ++ ",\n" ++ itemsPretty level rest

def fieldsPretty (level : Nat) : List (String × Value) → String
  | [] => ""
  | [(k, v)] => indent level ++ Json.quote k ++ ": " ++ toPrettyAt level v
  | (k, v) :: rest =>
    indent level ++ Json.quote k ++ ": " ++ toPrettyAt level v ++ ",\n" ++ fieldsPretty level rest

end

def toPretty (v : Value) : String := toPrettyAt 0 v

end Value

end LayeredConfig
