import LayeredConfig.Toml.Grammar
import LayeredConfig.Toml.Datetime

/-! Decoding what the tokens of keys and values say.

Basic strings take the escapes `\b \t \n \f \r \e \" \\`, `\xHH`, `\uHHHH`
and `\UHHHHHHHH`; multi-line basic strings also a backslash that ends a line,
which drops the blanks and newlines after it. Literal strings are taken as
they are. A newline right after the opening of a multi-line string is dropped.
Strings may not hold control characters other than tab (and newlines in
multi-line strings, where a carriage return must come before a line feed).

Unquoted keys are letters, digits, `-` and `_`. Unquoted values are booleans,
`inf` and `nan` with an optional sign, dates and times, integers in decimal or
with a `0x`, `0o` or `0b` prefix, and decimal floats; `_` may stand between
digits, checked on what follows the sign or the radix prefix. A blank may
only stand in a value shaped like a date or time. Values are told apart by
their first characters: a sign, a digit and what follows the leading digits
(`-` or `:` for a date or time, a `.`, `e` or `E` anywhere for a float). The shape of a float is checked here; integers and
floats keep their digits and get their values when the document is turned into
a tree, so digits that do not belong to an integer's radix are refused only
then. Text that is no value and ends in a quote is taken for a string that
lacks its opening quote.

Every check reports its problem at a byte span within the token, and the first
problem found is the one reported. -/

namespace LayeredConfig

namespace Toml

/-- A decoded value that is not an array or a table. -/
inductive Scalar where
  | str (s : String)
  | bool (b : Bool)
  /-- An integer's sign and digits (without `_`) in a radix. -/
  | integer (text : List Char) (radix : Nat)
  /-- A float's text without `_`, or `inf` or `nan` with a sign. -/
  | float (text : List Char)
  /-- The normal text of a date or time. -/
  | datetime (text : String)
  deriving Inhabited

/-! ### Strings -/

def hexValue? (ch : Char) : Option Nat :=
  if '0' ≤ ch && ch ≤ '9' then some (ch.toNat - 48)
  else if 'a' ≤ ch && ch ≤ 'f' then some (ch.toNat - 87)
  else if 'A' ≤ ch && ch ≤ 'F' then some (ch.toNat - 55)
  else none

/-- Up to `n` leading hex digits and what follows them. -/
def hexRun : Nat → List Char → List Nat × List Char
  | 0, cs => ([], cs)
  | n + 1, c :: rest =>
    match hexValue? c with
    | some d =>
      let (ds, left) := hexRun n rest
      (d :: ds, left)
    | none => ([], c :: rest)
  | _ + 1, [] => ([], [])

def unknownEscape : String :=
  "missing escaped value, expected `b`, `e`, `f`, `n`, `r`, `\\`, `\"`, `x`, `u`, `U`"

/-- Read an escape after its backslash; `pos` is the offset of the character
after the backslash. Gives the character, the rest and its offset. -/
def readEscape (pos : Nat) : List Char → Except ReadError (Char × List Char × Nat)
  | [] => failAt unknownEscape pos pos
  | c :: rest =>
    let simple (ch : Char) : Except ReadError (Char × List Char × Nat) := .ok (ch, rest, pos + 1)
    let hex (n : Nat) : Except ReadError (Char × List Char × Nat) :=
      let (ds, left) := hexRun n rest
      let after := pos + 1 + ds.length
      if ds.length < n then
        failAt "too few unicode value digits, expected unicode hexadecimal value" after after
      else
        let v := ds.foldl (fun acc d => acc * 16 + d) 0
        if v < 0xD800 || (0xDFFF < v && v ≤ 0x10FFFF) then .ok (Char.ofNat v, left, after)
        else failAt "invalid value, expected unicode hexadecimal value" (pos + 1) (pos + 1)
    match c with
    | 'b' => simple (Char.ofNat 8)
    | 'e' => simple (Char.ofNat 27)
    | 'f' => simple (Char.ofNat 12)
    | 'n' => simple '\n'
    | 'r' => simple '\r'
    | 't' => simple '\t'
    | '\\' => simple '\\'
    | '"' => simple '"'
    | 'x' => hex 2
    | 'u' => hex 4
    | 'U' => hex 8
    | _ => failAt unknownEscape pos pos

def isBasicPlain (ch : Char) : Bool :=
  ch = ' ' || ch = '\t' || ch = '!' || ('#' ≤ ch && ch ≤ '[') || (']' ≤ ch && ch.toNat ≤ 0x7E) ||
    0x80 ≤ ch.toNat

def basicInvalid : String :=
  "invalid basic string, expected non-double-quote visible characters, `\\`"

/-- Decode the body of a basic string starting at byte offset `pos`. -/
def basicContent : Nat → Nat → List Char → List Char → Except ReadError (List Char)
  | 0, _, _, acc => .ok acc.reverse
  | _, _, [], acc => .ok acc.reverse
  | fuel + 1, pos, c :: rest, acc =>
    if c = '\\' then do
      let (ch, left, pos') ← readEscape (pos + 1) rest
      basicContent fuel pos' left (ch :: acc)
    else if isBasicPlain c then basicContent fuel (pos + c.utf8Size) rest (c :: acc)
    else
      let (bad, _) := spanWhile (fun x => !(isBasicPlain x || x = '\\')) (c :: rest)
      failAt basicInvalid pos (pos + byteLength bad)

def decodeBasic (p : KeyPart) : Except ReadError String :=
  let body := p.text.drop 1
  if body.getLast? != some '"' then failAt "invalid basic string, expected `\"`" p.stop p.stop
  else do
    let content := body.dropLast
    let cs ← basicContent (content.length + 1) (p.start + 1) content []
    pure (String.ofList cs)

def isLiteralChar (ch : Char) : Bool :=
  ch = '\t' || (' ' ≤ ch && ch.toNat ≤ 0x7E && ch != apostrophe) || 0x80 ≤ ch.toNat

def decodeLiteral (p : KeyPart) : Except ReadError String :=
  let body := p.text.drop 1
  if body.getLast? != some apostrophe then
    failAt ("invalid literal string, expected `" ++ String.singleton apostrophe ++ "`") p.stop p.stop
  else
    let content := body.dropLast
    match firstFailing isLiteralChar content (p.start + 1) with
    | some pos => failAt "invalid literal string, expected non-single-quote visible characters" pos pos
    | none => .ok (String.ofList content)

/-- Drop a newline right after the opening of a multi-line string, counting
its bytes. -/
def dropFirstNewline : List Char → List Char × Nat
  | '\n' :: rest => (rest, 1)
  | '\r' :: '\n' :: rest => (rest, 2)
  | cs => (cs, 0)

def endsWithTriple (q : Char) (cs : List Char) : Bool :=
  match cs.reverse with
  | a :: b :: c :: _ => a = q && b = q && c = q
  | _ => false

def isMultilinePlain (ch : Char) : Bool := isBasicPlain ch || ch = '"' || ch = '\n'

/-- The message for a carriage return of a multi-line string that no line feed
follows; it is reported just after the carriage return. -/
def loneCarriageReturn : String :=
  "carriage return must be followed by newline, expected newline"

/-- Skip blanks and newlines, a carriage return only before a line feed. -/
def skipLineBreaks : List Char → Nat → Except ReadError (List Char × Nat)
  | [], p => .ok ([], p)
  | c :: more, p =>
    if c = ' ' || c = '\t' || c = '\n' then skipLineBreaks more (p + 1)
    else if c = '\r' then
      match more with
      | '\n' :: more' => skipLineBreaks more' (p + 2)
      | _ => failAt loneCarriageReturn (p + 1) (p + 1)
    else .ok (c :: more, p)

/-- Skip the blanks and newlines after a backslash that ends a line, starting at
offset `start`; the first character after the blanks must start a newline. -/
def lineContinuation (start : Nat) (cs : List Char) : Except ReadError (List Char × Nat) :=
  let (blanks, rest) := spanWhile (fun x => x = ' ' || x = '\t') cs
  let pos := start + blanks.length
  match rest with
  | '\n' :: more => skipLineBreaks more (pos + 1)
  | '\r' :: '\n' :: more => skipLineBreaks more (pos + 2)
  | '\r' :: _ => failAt loneCarriageReturn (pos + 1) (pos + 1)
  | _ => failAt "invalid multi-line basic string, expected newline" pos pos

def multilineBasicInvalid : String :=
  "invalid multi-line basic string, expected `\\`, characters"

def multilineBasicContent : Nat → Nat → List Char → List Char → Except ReadError (List Char)
  | 0, _, _, acc => .ok acc.reverse
  | _, _, [], acc => .ok acc.reverse
  | fuel + 1, pos, c :: rest, acc =>
    if c = '\\' then
      match rest with
      | d :: _ =>
        if d = ' ' || d = '\t' || d = '\r' || d = '\n' then do
          let (left, pos') ← lineContinuation (pos + 1) rest
          multilineBasicContent fuel pos' left acc
        else do
          let (ch, left, pos') ← readEscape (pos + 1) rest
          multilineBasicContent fuel pos' left (ch :: acc)
      | [] => failAt unknownEscape (pos + 1) (pos + 1)
    else if c = '\r' then
      if rest.head? = some '\n' then multilineBasicContent fuel (pos + 2) rest.tail ('\n' :: '\r' :: acc)
      else failAt loneCarriageReturn (pos + 1) (pos + 1)
    else if isMultilinePlain c then multilineBasicContent fuel (pos + c.utf8Size) rest (c :: acc)
    else
      let (bad, _) := spanWhile (fun x => !(isMultilinePlain x || x = '\\')) (c :: rest)
      failAt multilineBasicInvalid pos (pos + byteLength bad)

def decodeMultilineBasic (p : KeyPart) : Except ReadError String :=
  let (body, skipped) := dropFirstNewline (p.text.drop 3)
  if !endsWithTriple '"' body then
    failAt "invalid multi-line basic string, expected `\"`" p.stop p.stop
  else do
    let content := body.take (body.length - 3)
    let cs ← multilineBasicContent (content.length + 1) (p.start + 3 + skipped) content []
    pure (String.ofList cs)

/-- Check the body of a multi-line literal string starting at byte offset
`pos`: tabs, visible characters and newlines, a carriage return only before a
line feed. -/
def checkMultilineLiteral : List Char → Nat → Except ReadError Unit
  | [], _ => .ok ()
  | c :: rest, pos =>
    if c = '\r' then
      match rest with
      | '\n' :: more => checkMultilineLiteral more (pos + 2)
      | _ => failAt loneCarriageReturn (pos + 1) (pos + 1)
    else if c = '\t' || c = '\n' || (' ' ≤ c && c.toNat ≤ 0x7E) || 0x80 ≤ c.toNat then
      checkMultilineLiteral rest (pos + c.utf8Size)
    else failAt "invalid multi-line literal string, expected non-single-quote characters" pos pos

def decodeMultilineLiteral (p : KeyPart) : Except ReadError String :=
  let (body, skipped) := dropFirstNewline (p.text.drop 3)
  if !endsWithTriple apostrophe body then
    failAt ("invalid multi-line literal string, expected `" ++ String.singleton apostrophe ++ "`") p.stop p.stop
  else do
    let content := body.take (body.length - 3)
    checkMultilineLiteral content (p.start + 3 + skipped)
    pure (String.ofList content)

/-! ### Keys -/

def isBareKeyChar (ch : Char) : Bool :=
  ('A' ≤ ch && ch ≤ 'Z') || ('a' ≤ ch && ch ≤ 'z') || ('0' ≤ ch && ch ≤ '9') || ch = '-' || ch = '_'

def bareKeyExpected : String := ", expected letters, numbers, `-`, `_`"

def decodeKey (p : KeyPart) : Except ReadError String :=
  match p.kind with
  | .basic => decodeBasic p
  | .literal => decodeLiteral p
  | .mlBasic =>
    failAt "keys cannot be multi-line basic strings, expected basic string, literal string" p.start p.stop
  | .mlLiteral =>
    failAt "keys cannot be multi-line literal strings, expected basic string, literal string" p.start p.stop
  | _ =>
    if p.text.isEmpty then failAt ("unquoted keys cannot be empty" ++ bareKeyExpected) p.start p.stop
    else
      match firstFailing isBareKeyChar p.text p.start with
      | some pos =>
        let bad := (p.text.dropWhile isBareKeyChar).takeWhile (!isBareKeyChar ·)
        failAt ("invalid unquoted key" ++ bareKeyExpected) pos (pos + byteLength bad)
      | none => .ok (String.ofList p.text)

/-! ### Unquoted values -/

inductive Radix where
  | bin
  | oct
  | dec
  | hex
  deriving DecidableEq, Inhabited

def Radix.base : Radix → Nat
  | .bin => 2
  | .oct => 8
  | .dec => 10
  | .hex => 16

def Radix.isDigit (r : Radix) (ch : Char) : Bool :=
  match hexValue? ch with
  | some d => d < r.base
  | none => false

def Radix.invalid : Radix → String
  | .bin => "invalid binary number"
  | .oct => "invalid octal number"
  | .dec => "invalid decimal number"
  | .hex => "invalid hexadecimal number"

/-- Whether a character is a hex digit, the digits an underscore of an integer
may stand between. -/
def isHexDigit (ch : Char) : Bool := (hexValue? ch).isSome

/-- Fail at byte offsets within an unquoted value that starts at `base`. -/
def scalarFail {α : Type} (base : Nat) (message : String) (i j : Nat) : Except ReadError α :=
  failAt message (base + i) (base + j)

/-- Text that is no value at all. Text that ends in a quote is taken for a
string whose opening quote is missing. -/
def unquotedInvalid {α : Type} (raw : List Char) (base : Nat) : Except ReadError α :=
  let quoteOf (cs : List Char) : String := "`" ++ String.ofList cs ++ "`"
  let apostrophes := List.replicate 3 apostrophe
  let quotes := List.replicate 3 '"'
  let missing (cs : List Char) : Except ReadError α :=
    scalarFail base ("missing opening quote, expected " ++ quoteOf cs) 0 0
  if apostrophes.isSuffixOf raw then missing apostrophes
  else if quotes.isSuffixOf raw then missing quotes
  else if [apostrophe].isSuffixOf raw then missing [apostrophe]
  else if ['"'].isSuffixOf raw then missing ['"']
  else scalarFail base "string values must be quoted, expected literal string" 0 (byteLength raw)

/-- A word value (`true`, `false`, `inf`, `nan`): the text must be exactly the
word. -/
def symbolValue (raw : List Char) (base : Nat) (word : String) (value : Scalar) (problem : String) :
    Except ReadError Scalar :=
  if raw = word.toList then .ok value
  else scalarFail base (problem ++ ", expected `" ++ word ++ "`") 0 (byteLength raw)

/-- The pieces of a text between underscores with their byte offsets. -/
def underscoreParts : List Char → Nat → List (List Char × Nat)
  | [], pos => [([], pos)]
  | c :: rest, pos =>
    if c = '_' then ([], pos) :: underscoreParts rest (pos + 1)
    else
      match underscoreParts rest (pos + c.utf8Size) with
      | (part, _) :: more => (c :: part, pos) :: more
      | [] => [([c], pos)]

/-- Check that every `_` of a number stands between two digits, and give the
number without them. The text starts at offset `start` of a value of `total`
bytes; `digit` tells the digits, decimal ones for floats and hex ones for
integers of any radix. The pieces between underscores are checked left to
right: each after the first must start with a digit, and one that is not the
last must end with one, so of a run of two the first `_` is the one refused. -/
def withoutUnderscores (digit : Char → Bool) (text : List Char) (start total base : Nat) :
    Except ReadError (List Char) := do
  let fail (i : Nat) : Except ReadError Unit :=
    scalarFail base "`_` may only go between digits, expected nothing" i (i + 1)
  if text.head? = some '_' then fail start
  for (part, pstart) in underscoreParts text start do
    if start < pstart && !(part.head?.map digit).getD false then fail (pstart - 1)
    let pend := pstart + byteLength part
    if 1 < part.length && pend < total && !digit (part.getLast?.getD '0') then fail pend
  pure (text.filter (· != '_'))

/-- Check the digits of an integer with a radix prefix, at offset `start`: no
sign, and only digits of the radix and `_`. -/
def checkRadixDigits (radix : Radix) (text : List Char) (start base : Nat) : Except ReadError Unit := do
  let body ← match text with
    | s :: rest =>
      if s = '+' || s = '-' then scalarFail base "unexpected sign, expected nothing" start (start + 1)
      else pure (s :: rest)
    | [] => pure []
  match firstFailing (fun c => radix.isDigit c || c = '_') body start with
  | some bad => scalarFail base radix.invalid bad bad
  | none => pure ()

def digitRun (cs : List Char) : List Char × List Char := spanWhile (fun c => c.isDigit || c = '_') cs

def hasDigit (run : List Char) : Bool := run.any Char.isDigit

/-- Check the shape of a float whose text `cs` starts at offset `pos` of the
value `raw`: an integer part without a leading zero, then an optional
fraction and exponent, each with digits, and nothing after them. -/
def checkFloat (raw cs : List Char) (pos base : Nat) : Except ReadError Unit := do
  let (int, cs) := digitRun cs
  if !hasDigit int then scalarFail base "invalid mantissa, expected digits" pos pos
  if 2 ≤ (int.filter Char.isDigit).length && int.head? = some '0' then
    scalarFail base "unexpected leading zero, expected nothing" pos (pos + 1)
  let pos := pos + int.length
  let (cs, pos) ← match cs with
    | '.' :: rest =>
      let (frac, rest) := digitRun rest
      if hasDigit frac then pure (rest, pos + 1 + frac.length)
      else scalarFail base "invalid fraction, expected digits" (pos + 1) (pos + 1)
    | _ => pure (cs, pos)
  let (cs, pos) ← match cs with
    | e :: rest =>
      if e = 'e' || e = 'E' then
        let (signLength, rest) := match rest with
          | s :: more => if s = '+' || s = '-' then (1, more) else (0, rest)
          | [] => (0, rest)
        let (exp, rest) := digitRun rest
        let at_ := pos + 1 + signLength
        if hasDigit exp then pure (rest, at_ + exp.length)
        else scalarFail base "invalid exponent, expected digits" at_ at_
      else pure (cs, pos)
    | [] => pure (cs, pos)
  if !cs.isEmpty then scalarFail base "invalid float, expected nothing" pos (byteLength raw)

/-- A float whose text `cs` starts at offset `pos` of the value `raw`: its
shape and underscores checked, its text without underscores after what comes
before `pos` (the sign, if any). -/
def floatValue (raw cs : List Char) (pos base : Nat) : Except ReadError Scalar := do
  checkFloat raw cs pos base
  let text ← withoutUnderscores Char.isDigit cs pos (byteLength raw) base
  pure (.float (raw.take pos ++ text))

/-- A date or time value: the whole text read as one. -/
def datetimeValue (raw : List Char) (base : Nat) : Except ReadError Scalar :=
  match readDatetime raw with
  | .ok text => .ok (.datetime text)
  | .error message => scalarFail base message 0 (byteLength raw)

/-- A value whose text `s` at offset `pos` starts with a digit or `_`: what
follows the leading digits tells it apart. Nothing is a decimal integer; `-`
or `:` a date or time; a `.`, `e` or `E` anywhere a float; `_` an integer
with separators; anything else no value at all. An integer's digits are only
checked when it gets its value. -/
def numberValue (raw s : List Char) (pos base : Nat) : Except ReadError Scalar :=
  let integer : Except ReadError Scalar := do
    if s.head? = some '0' then scalarFail base "unexpected leading zero, expected nothing" pos (pos + 1)
    let text ← withoutUnderscores isHexDigit s pos (byteLength raw) base
    pure (.integer (raw.take pos ++ text) 10)
  match s.dropWhile Char.isDigit with
  | [] => integer
  | rest@(c :: _) =>
    if c = '-' || c = ':' then datetimeValue raw base
    else if rest.any (fun x => x = '.' || x = 'e' || x = 'E') then floatValue raw s pos base
    else if c = '_' then integer
    else unquotedInvalid raw base

/-- A value whose text `value` at offset `pos` starts with `0`: zero, an
integer with a radix prefix, or another number; `signed` holds when a sign came
before it. -/
def zeroValue (raw value : List Char) (pos : Nat) (signed : Bool) (base : Nat) : Except ReadError Scalar :=
  match value with
  | _ :: r :: rest =>
    let unsigned : Except ReadError Unit :=
      if signed then scalarFail base "integers with a radix cannot be signed, expected nothing" 0 1
      else pure ()
    let prefixed (radix : Radix) (lower : Char) : Except ReadError Scalar := do
      unsigned
      if r != lower then
        scalarFail base ("radix must be lowercase, expected `0" ++ String.singleton lower ++ "`") pos (pos + 2)
      checkRadixDigits radix rest (pos + 2) base
      let text ← withoutUnderscores isHexDigit rest (pos + 2) (byteLength raw) base
      pure (.integer text radix.base)
    if r = 'x' || r = 'X' then prefixed .hex 'x'
    else if r = 'o' || r = 'O' then prefixed .oct 'o'
    else if r = 'b' || r = 'B' then prefixed .bin 'b'
    else if r = 'd' || r = 'D' then do
      unsigned
      scalarFail base "redundant integer number prefix, expected nothing" pos (pos + 2)
    else numberValue raw value pos base
  | _ => .ok (.integer raw 10)

def signedValue (raw value : List Char) (pos base : Nat) : Except ReadError Scalar :=
  match value with
  | [] => unquotedInvalid raw base
  | c :: _ =>
    if c = '+' || c = '-' then scalarFail base "redundant numeric sign, expected nothing" pos (pos + 1)
    else if c = '_' || ('1' ≤ c && c ≤ '9') then numberValue raw value pos base
    else if c = '0' then zeroValue raw value pos true base
    else if c = '.' then floatValue raw raw 0 base
    else if c = 'i' || c = 'I' then
      if value = "inf".toList then .ok (.float raw)
      else scalarFail base "invalid float, expected `inf`" pos (byteLength raw)
    else if c = 'n' || c = 'N' then
      if value = "nan".toList then .ok (.float raw)
      else scalarFail base "invalid float, expected `nan`" pos (byteLength raw)
    else unquotedInvalid raw base

/-- Whether a text is shaped like a date or a time: digits, then `-` or `:`. -/
def datetimeShaped (cs : List Char) : Bool :=
  match cs.dropWhile Char.isDigit with
  | c :: _ => (cs.head?.map Char.isDigit).getD false && (c = '-' || c = ':')
  | [] => false

/-- Decode an unquoted value starting at byte offset `base`. A blank may only
stand in a value shaped like a date or a time, between the two; the first
character chooses how the rest is read. -/
def decodeUnquoted (raw : List Char) (base : Nat) : Except ReadError Scalar :=
  match raw with
  | [] => unquotedInvalid raw base
  | c :: rest =>
    if raw.contains ' ' && !datetimeShaped raw then unquotedInvalid raw base
    else if c = '+' || c = '-' then signedValue raw rest 1 base
    else if c = '_' || ('1' ≤ c && c ≤ '9') then numberValue raw raw 0 base
    else if c = '0' then zeroValue raw raw 0 false base
    else if c = '.' then floatValue raw raw 0 base
    else if c = 't' || c = 'T' then symbolValue raw base "true" (.bool true) "invalid boolean"
    else if c = 'f' || c = 'F' then symbolValue raw base "false" (.bool false) "invalid boolean"
    else if c = 'i' || c = 'I' then symbolValue raw base "inf" (.float raw) "invalid float"
    else if c = 'n' || c = 'N' then symbolValue raw base "nan" (.float raw) "invalid float"
    else unquotedInvalid raw base

def decodeScalar (kind : TokenKind) (text : List Char) (start stop : Nat) : Except ReadError Scalar :=
  let p : KeyPart := ⟨kind, text, start, stop⟩
  match kind with
  | .basic => Scalar.str <$> decodeBasic p
  | .literal => Scalar.str <$> decodeLiteral p
  | .mlBasic => Scalar.str <$> decodeMultilineBasic p
  | .mlLiteral => Scalar.str <$> decodeMultilineLiteral p
  | _ => decodeUnquoted text start

end Toml

end LayeredConfig
