import LayeredConfig.Tree.Basic

/-! Reading JSON text into trees, strictly. Blanks are space, tab, line feed and
carriage return; literals are `null`, `true` and `false`; strings may not hold
control characters and know the escapes `\" \\ \/ \b \f \n \r \t \uXXXX`, where
a UTF-16 surrogate pair stands for one character and a lone surrogate is refused;
at most 127 arrays and objects may be open at once; a later field with a key
already seen replaces the value of the earlier one in its place.

A number is read as an unsigned integer while its digits fit in 64 bits; a minus
sign makes it a negative integer down to `-2 ^ 63`, and `-0` is the double `-0.0`.
Otherwise it is a double computed from a 64-bit significand, with digits beyond
it dropped and counted in the exponent, converted and then multiplied or divided
once by the double nearest to the power of ten; quotients by powers above
`10 ^ 308` go in steps of `10 ^ 308`. A result that overflows is refused.

A failure names what was expected and where: the line, counted from one, and
the column, counted in bytes from zero at the start of a line, of the position
just after what was read. A character that is not the one expected is read one
byte at a time, so the position falls just after its first byte. -/

namespace LayeredConfig

namespace Json

/-- Why a text is not JSON. -/
inductive ReadErrorCode where
  | eofWhileParsingList
  | eofWhileParsingObject
  | eofWhileParsingString
  | eofWhileParsingValue
  | expectedColon
  | expectedListCommaOrEnd
  | expectedObjectCommaOrEnd
  | expectedSomeIdent
  | expectedSomeValue
  | invalidEscape
  | invalidNumber
  | numberOutOfRange
  | invalidUnicodeCodePoint
  | controlCharacterWhileParsingString
  | keyMustBeAString
  | loneLeadingSurrogateInHexEscape
  | trailingComma
  | trailingCharacters
  | unexpectedEndOfHexEscape
  | recursionLimitExceeded
  deriving DecidableEq, Inhabited

def ReadErrorCode.text : ReadErrorCode → String
  | .eofWhileParsingList => "EOF while parsing a list"
  | .eofWhileParsingObject => "EOF while parsing an object"
  | .eofWhileParsingString => "EOF while parsing a string"
  | .eofWhileParsingValue => "EOF while parsing a value"
  | .expectedColon => "expected `:`"
  | .expectedListCommaOrEnd => "expected `,` or `]`"
  | .expectedObjectCommaOrEnd => "expected `,` or `\x7d`"
  | .expectedSomeIdent => "expected ident"
  | .expectedSomeValue => "expected value"
  | .invalidEscape => "invalid escape"
  | .invalidNumber => "invalid number"
  | .numberOutOfRange => "number out of range"
  | .invalidUnicodeCodePoint => "invalid unicode code point"
  | .controlCharacterWhileParsingString =>
    "control character (\\u0000-\\u001F) found while parsing a string"
  | .keyMustBeAString => "key must be a string"
  | .loneLeadingSurrogateInHexEscape => "lone leading surrogate in hex escape"
  | .trailingComma => "trailing comma"
  | .trailingCharacters => "trailing characters"
  | .unexpectedEndOfHexEscape => "unexpected end of hex escape"
  | .recursionLimitExceeded => "recursion limit exceeded"

structure ReadError where
  code : ReadErrorCode
  line : Nat
  column : Nat
  deriving DecidableEq, Inhabited

def ReadError.message (e : ReadError) : String :=
  e.code.text ++ " at line " ++ toString e.line ++ " column " ++ toString e.column

/-- The unread rest of a text with the position reached. -/
structure Cursor where
  rest : List Char
  line : Nat
  column : Nat

namespace Cursor

def advance (c : Cursor) : Cursor :=
  match c.rest with
  | [] => c
  | ch :: r => if ch = '\n' then ⟨r, c.line + 1, 0⟩ else ⟨r, c.line, c.column + ch.utf8Size⟩

def fail {α : Type} (c : Cursor) (code : ReadErrorCode) : Except ReadError α :=
  .error ⟨code, c.line, c.column⟩

/-- Fail at the position one byte further. -/
def peekFail {α : Type} (c : Cursor) (code : ReadErrorCode) : Except ReadError α :=
  match c.rest with
  | [] => .error ⟨code, c.line, c.column⟩
  | ch :: _ => if ch = '\n' then .error ⟨code, c.line + 1, 0⟩ else .error ⟨code, c.line, c.column + 1⟩

def skipBlank (c : Cursor) : Cursor :=
  let n := (c.rest.takeWhile fun ch => ch = ' ' || ch = '\n' || ch = '\t' || ch = '\r').length
  n.repeat advance c

def expect (c : Cursor) : List Char → Except ReadError Cursor
  | [] => .ok c
  | e :: es =>
    match c.rest with
    | [] => c.fail .eofWhileParsingValue
    | ch :: _ => if ch = e then expect c.advance es else c.peekFail .expectedSomeIdent

def digit? (c : Cursor) : Option Nat :=
  match c.rest with
  | ch :: _ => if ch.isDigit then some (ch.toNat - 48) else none
  | [] => none

end Cursor

def wordMax : Nat := Nat.pow 2 64 - 1

def powerOfTen (k : Nat) : Binary64 := Binary64.round false (Nat.pow 10 k) 1 0

def int32Max : Int := Int.pow 2 31 - 1

def saturate (i : Int) : Int := max (-(Int.pow 2 31)) (min int32Max i)

/-- Scale a significand by a power of ten with one rounding per step. -/
def scaleByTen : Nat → Binary64 → Int → Option Binary64
  | 0, f, _ => some f
  | fuel + 1, f, exponent =>
    if exponent.natAbs ≤ 308 then
      if 0 ≤ exponent then
        let g := f * powerOfTen exponent.natAbs
        if g.isInfinite then none else some g
      else some (f / powerOfTen exponent.natAbs)
    else if f.isZero then some f
    else if 0 ≤ exponent then none
    else scaleByTen fuel (f / powerOfTen 308) (exponent + 308)

/-- The double of a significand and a decimal exponent, or a range failure. -/
def doubleOfParts (c : Cursor) (positive : Bool) (significand : Nat) (exponent : Int) :
    Except ReadError Number :=
  match scaleByTen 8 (Binary64.ofNat significand) exponent with
  | some f => .ok (.float (if positive then f else f.neg))
  | none => c.fail .numberOutOfRange

/-- Skip the digits that no longer fit. -/
def skipDigits (c : Cursor) : Cursor :=
  let n := (c.rest.takeWhile Char.isDigit).length
  n.repeat Cursor.advance c

def readExponent (c : Cursor) (positive : Bool) (significand : Nat) (start : Int) :
    Except ReadError (Number × Cursor) :=
  let c := c.advance
  let (positiveExp, c) :=
    match c.rest with
    | '+' :: _ => (true, c.advance)
    | '-' :: _ => (false, c.advance)
    | _ => (true, c)
  match c.rest with
  | [] => c.fail .eofWhileParsingValue
  | ch :: _ =>
    if ch.isDigit then
      let digits := c.rest.takeWhile Char.isDigit
      -- the digits are read one by one; the one that overflows 32 bits stops the reading
      let rec go : List Char → Nat → Cursor → Except ReadError (Number × Cursor)
        | [], exp, c =>
          let final := if positiveExp then saturate (start + exp) else saturate (start - exp)
          match doubleOfParts c positive significand final with
          | .ok n => .ok (n, c)
          | .error e => .error e
        | d :: ds, exp, c =>
          let c := c.advance
          let v := exp * 10 + (d.toNat - 48)
          if (v : Int) > int32Max then
            if significand ≠ 0 ∧ positiveExp then c.fail .numberOutOfRange
            else .ok (.float (Binary64.zero (!positive)), skipDigits c)
          else go ds v c
      go digits 0 c
    else c.peekFail .invalidNumber

def readFraction (c : Cursor) (positive : Bool) (significand : Nat) (before : Int) :
    Except ReadError (Number × Cursor) :=
  let c := c.advance
  let digits := c.rest.takeWhile Char.isDigit
  let rec go : List Char → Nat → Int → Cursor → Except ReadError (Number × Cursor)
    | [], s, after, c =>
      if after = 0 then
        match c.rest with
        | [] => c.peekFail .eofWhileParsingValue
        | _ => c.peekFail .invalidNumber
      else
        match c.rest with
        | 'e' :: _ => readExponent c positive s (before + after)
        | 'E' :: _ => readExponent c positive s (before + after)
        | _ => (doubleOfParts c positive s (before + after)).map fun n => (n, c)
    | d :: ds, s, after, c =>
      let v := s * 10 + (d.toNat - 48)
      if v > wordMax then
        let c := skipDigits c
        match c.rest with
        | 'e' :: _ => readExponent c positive s (before + after)
        | 'E' :: _ => readExponent c positive s (before + after)
        | _ => (doubleOfParts c positive s (before + after)).map fun n => (n, c)
      else go ds v (after - 1) c.advance
  go digits significand 0 c

def readNumberTail (c : Cursor) (positive : Bool) (significand : Nat) :
    Except ReadError (Number × Cursor) :=
  match c.rest with
  | '.' :: _ => readFraction c positive significand 0
  | 'e' :: _ => readExponent c positive significand 0
  | 'E' :: _ => readExponent c positive significand 0
  | _ =>
    if positive then .ok (.int significand, c)
    else if significand = 0 then .ok (.float (Binary64.zero true), c)
    else if significand ≤ Nat.pow 2 63 then .ok (.int (-(significand : Int)), c)
    else .ok (.float (Binary64.ofNat significand).neg, c)

def readNumber (c : Cursor) (positive : Bool) : Except ReadError (Number × Cursor) :=
  match c.rest with
  | [] => c.fail .eofWhileParsingValue
  | '0' :: _ =>
    let c := c.advance
    match c.digit? with
    | some _ => c.peekFail .invalidNumber
    | none => readNumberTail c positive 0
  | ch :: _ =>
    if ch.isDigit then
      let digits := c.rest.takeWhile Char.isDigit
      let rec go : List Char → Nat → Cursor → Except ReadError (Number × Cursor)
        | [], s, c => readNumberTail c positive s
        | d :: ds, s, c =>
          let v := s * 10 + (d.toNat - 48)
          if v > wordMax then
            let extra := (c.rest.takeWhile Char.isDigit).length
            let c := skipDigits c
            match c.rest with
            | '.' :: _ => readFraction c positive s extra
            | 'e' :: _ => readExponent c positive s extra
            | 'E' :: _ => readExponent c positive s extra
            | _ => (doubleOfParts c positive s extra).map fun n => (n, c)
          else go ds v c.advance
      go digits.tail (ch.toNat - 48) c.advance
    else c.peekFail .invalidNumber

def hexValue (ch : Char) : Option Nat :=
  if '0' ≤ ch ∧ ch ≤ '9' then some (ch.toNat - 48)
  else if 'a' ≤ ch ∧ ch ≤ 'f' then some (ch.toNat - 87)
  else if 'A' ≤ ch ∧ ch ≤ 'F' then some (ch.toNat - 55)
  else none

/-- The line and column `n` bytes further on from a position; the place may fall
inside a character. -/
def bytesAhead : List Char → Nat → Nat → Nat → Nat × Nat
  | [], _, line, column => (line, column)
  | _, 0, line, column => (line, column)
  | ch :: rest, n + 1, line, column =>
    if ch = '\n' then bytesAhead rest n (line + 1) 0
    else if ch.utf8Size ≤ n + 1 then bytesAhead rest (n + 1 - ch.utf8Size) line (column + ch.utf8Size)
    else (line, column + n + 1)

def Cursor.failAhead {α : Type} (c : Cursor) (n : Nat) (code : ReadErrorCode) : Except ReadError α :=
  let (line, column) := bytesAhead c.rest n c.line c.column
  .error ⟨code, line, column⟩

/-- Read the four bytes of a `\u` escape as hex digits; fewer than four bytes
left is the end of the text inside a string. -/
def readHex4 (c : Cursor) : Except ReadError (Nat × Cursor) :=
  if (String.ofList (c.rest.take 4)).utf8ByteSize < 4 then
    c.failAhead 4 .eofWhileParsingString
  else
    match c.rest with
    | a :: b :: d :: e :: _ =>
      match hexValue a, hexValue b, hexValue d, hexValue e with
      | some x, some y, some z, some w =>
        .ok (((x * 16 + y) * 16 + z) * 16 + w, c.advance.advance.advance.advance)
      | _, _, _, _ => c.failAhead 4 .invalidEscape
    | _ => c.failAhead 4 .invalidEscape

def readUnicodeEscape (c : Cursor) : Except ReadError (Char × Cursor) := do
  let (n, c) ← readHex4 c
  if 0xDC00 ≤ n ∧ n ≤ 0xDFFF then c.fail .loneLeadingSurrogateInHexEscape
  else if 0xD800 ≤ n ∧ n ≤ 0xDBFF then
    let c ← match c.rest with
      | [] => c.fail .eofWhileParsingString
      | '\\' :: _ => pure c.advance
      | _ => c.failAhead 1 .unexpectedEndOfHexEscape
    let c ← match c.rest with
      | [] => c.fail .eofWhileParsingString
      | 'u' :: _ => pure c.advance
      | _ => c.failAhead 1 .unexpectedEndOfHexEscape
    let (n2, c) ← readHex4 c
    if n2 < 0xDC00 ∨ 0xDFFF < n2 then c.fail .loneLeadingSurrogateInHexEscape
    else pure (Char.ofNat (((n - 0xD800) * 1024 + (n2 - 0xDC00)) + 0x10000), c)
  else pure (Char.ofNat n, c)

def readStringBody : Nat → Cursor → List Char → Except ReadError (String × Cursor)
  | 0, c, _ => c.fail .eofWhileParsingString
  | fuel + 1, c, acc =>
    match c.rest with
    | [] => c.fail .eofWhileParsingString
    | '"' :: _ => .ok (String.ofList acc.reverse, c.advance)
    | '\\' :: _ =>
      let c := c.advance
      match c.rest with
      | [] => c.fail .eofWhileParsingString
      | e :: _ =>
        let simple : Option Char :=
          if e = '"' then some '"' else if e = '\\' then some '\\' else if e = '/' then some '/'
          else if e = 'b' then some (Char.ofNat 8) else if e = 'f' then some (Char.ofNat 12)
          else if e = 'n' then some '\n' else if e = 'r' then some '\r'
          else if e = 't' then some '\t' else none
        match simple with
        | some ch => readStringBody fuel c.advance (ch :: acc)
        | none =>
          if e = 'u' then
            match readUnicodeEscape c.advance with
            | .ok (ch, c) => readStringBody fuel c (ch :: acc)
            | .error err => .error err
          else c.peekFail .invalidEscape
    | ch :: _ =>
      if ch.toNat < 32 then c.peekFail .controlCharacterWhileParsingString
      else readStringBody fuel c.advance (ch :: acc)

def readString (c : Cursor) : Except ReadError (String × Cursor) :=
  readStringBody (c.rest.length + 1) c []

mutual

/-- Read one value; `room` is how many more arrays and objects may be opened. -/
def readValue : Nat → Nat → Cursor → Except ReadError (Value × Cursor)
  | 0, _, c => c.fail .recursionLimitExceeded
  | fuel + 1, room, c =>
    let c := c.skipBlank
    match c.rest with
    | [] => c.peekFail .eofWhileParsingValue
    | 'n' :: _ => (c.advance.expect "ull".toList).map fun c => (.null, c)
    | 't' :: _ => (c.advance.expect "rue".toList).map fun c => (.bool true, c)
    | 'f' :: _ => (c.advance.expect "alse".toList).map fun c => (.bool false, c)
    | '-' :: _ => (readNumber c.advance false).map fun (n, c) => (.num n, c)
    | '"' :: _ => (readString c.advance).map fun (s, c) => (.str s, c)
    | '[' :: _ =>
      if room ≤ 1 then c.peekFail .recursionLimitExceeded
      else
        match readItems fuel (room - 1) c.advance true [] with
        | .ok (items, c) => .ok (.arr items, c.advance)
        | .error e => .error e
    | '{' :: _ =>
      if room ≤ 1 then c.peekFail .recursionLimitExceeded
      else
        match readFields fuel (room - 1) c.advance true [] with
        | .ok (fields, c) => .ok (.obj fields, c.advance)
        | .error e => .error e
    | ch :: _ =>
      if ch.isDigit then (readNumber c true).map fun (n, c) => (.num n, c)
      else c.peekFail .expectedSomeValue

/-- Read array items up to the closing bracket, which is left unread. -/
def readItems : Nat → Nat → Cursor → Bool → List Value → Except ReadError (List Value × Cursor)
  | 0, _, c, _, _ => c.fail .recursionLimitExceeded
  | fuel + 1, room, c, first, acc =>
    let c := c.skipBlank
    match c.rest with
    | [] => c.peekFail .eofWhileParsingList
    | ']' :: _ => .ok (acc.reverse, c)
    | ch :: _ =>
      let next : Except ReadError Cursor :=
        if ch = ',' ∧ !first then
          let c := c.advance.skipBlank
          match c.rest with
          | [] => c.peekFail .eofWhileParsingValue
          | ']' :: _ => c.peekFail .trailingComma
          | _ => .ok c
        else if first then .ok c
        else c.peekFail .expectedListCommaOrEnd
      match next with
      | .error e => .error e
      | .ok c =>
        match readValue fuel room c with
        | .ok (v, c) => readItems fuel room c false (v :: acc)
        | .error e => .error e

/-- Read object fields up to the closing brace, which is left unread. -/
def readFields : Nat → Nat → Cursor → Bool → List (String × Value) →
    Except ReadError (List (String × Value) × Cursor)
  | 0, _, c, _, _ => c.fail .recursionLimitExceeded
  | fuel + 1, room, c, first, acc =>
    let c := c.skipBlank
    match c.rest with
    | [] => c.peekFail .eofWhileParsingObject
    | '}' :: _ => .ok (acc, c)
    | ch :: _ =>
      let next : Except ReadError Cursor :=
        if ch = ',' ∧ !first then
          let c := c.advance.skipBlank
          match c.rest with
          | [] => c.peekFail .eofWhileParsingValue
          | '"' :: _ => .ok c
          | '}' :: _ => c.peekFail .trailingComma
          | _ => c.peekFail .keyMustBeAString
        else if first then
          if ch = '"' then .ok c else c.peekFail .keyMustBeAString
        else c.peekFail .expectedObjectCommaOrEnd
      match next with
      | .error e => .error e
      | .ok c =>
        match readString c.advance with
        | .error e => .error e
        | .ok (key, c) =>
          let c := c.skipBlank
          let afterColon : Except ReadError Cursor :=
            match c.rest with
            | [] => c.peekFail .eofWhileParsingObject
            | ':' :: _ => .ok c.advance
            | _ => c.peekFail .expectedColon
          match afterColon with
          | .error e => .error e
          | .ok c =>
            match readValue fuel room c with
            | .ok (v, c) => readFields fuel room c false (Fields.set acc key v)
            | .error e => .error e

end

end Json

/-- Read a whole text as one JSON value with nothing but blanks after it. -/
def Value.ofJson (text : String) : Except Json.ReadError Value :=
  let c : Json.Cursor := ⟨text.toList, 1, 0⟩
  match Json.readValue (2 * text.length + 2) 128 c with
  | .error e => .error e
  | .ok (v, c) =>
    let c := c.skipBlank
    match c.rest with
    | [] => .ok v
    | _ => c.peekFail .trailingCharacters

end LayeredConfig
