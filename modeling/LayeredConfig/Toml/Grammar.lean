import LayeredConfig.Toml.Lex

/-! Reading the tokens of a TOML document into its expressions: key/value
pairs and table headers, with values as written (strings and unquoted text
still undecoded). Only the order of the tokens is checked here; what keys and
values say, and whether tables clash, is the business of the next stage.

A value's unquoted text takes in the atoms and dots that follow it and, after
a blank, another atom, so that `1.5` and `1979-05-27 07:32:00` are single
values (and `1 2` is one value that cannot be read later). Arrays and inline
tables may span lines and hold comments; both allow a trailing comma.

Comments may hold tabs and visible characters only, and a carriage return must
be followed by a line feed. Arrays and inline tables nest at most
`nestingLimit` deep.

A missing key or value where the grammar still knows how to go on is recorded
as an empty bare part or an empty unquoted value, so that the next stage, which
cannot read it, reports it; any other problem stops the reading with the first
one in the text. -/

namespace LayeredConfig

namespace Toml

/-- A part of a key as written: bare (an atom) or quoted. -/
structure KeyPart where
  kind : TokenKind
  text : List Char
  start : Nat
  stop : Nat
  deriving Inhabited

inductive RawValue where
  | scalar (kind : TokenKind) (text : List Char) (start stop : Nat)
  | array (items : List RawValue)
  | inline (pairs : List (List KeyPart × RawValue))
  deriving Inhabited

inductive Expression where
  | pair (key : List KeyPart) (value : RawValue)
  | header (isArray : Bool) (key : List KeyPart)
  deriving Inhabited

/-- How deep arrays and inline tables may nest, and how many parts a key may
have. -/
def nestingLimit : Nat := 80

def failAt {α : Type} (message : String) (start stop : Nat) : Except ReadError α :=
  .error ⟨message, start, stop, true⟩

def KeyPart.ofToken (t : Token) : KeyPart := ⟨t.kind, t.text, t.start, t.stop⟩

def KeyPart.missing (pos : Nat) : KeyPart := ⟨.atom, [], pos, pos⟩

def isCommentChar (ch : Char) : Bool := ch = '\t' || (' ' ≤ ch && ch.toNat != 127)

/-- The byte offset of the first character failing a test, after `pos`. -/
def firstFailing (p : Char → Bool) : List Char → Nat → Option Nat
  | [], _ => none
  | ch :: rest, pos => if p ch then firstFailing p rest (pos + ch.utf8Size) else some pos

def checkComment (t : Token) : Except ReadError Unit :=
  match firstFailing isCommentChar t.text t.start with
  | some pos => failAt "invalid comment character, expected printable characters" pos pos
  | none => .ok ()

def checkNewline (t : Token) : Except ReadError Unit :=
  if t.text = ['\r'] then failAt "carriage return must be followed by newline, expected newline" t.stop t.stop
  else .ok ()

def afterComment (c : Token) (rest : List Token) : Except ReadError (List Token) := do
  checkComment c
  match rest with
  | t :: more => if t.kind = .newline then do checkNewline t; pure more else pure rest
  | [] => pure []

def skipBlank : List Token → List Token
  | t :: rest => if t.kind = .whitespace then rest else t :: rest
  | [] => []

/-- The end of a line after an expression: blanks, then a comment, a newline
or the end of the input. -/
def lineEnd : List Token → Except ReadError (List Token)
  | [] => .ok []
  | t :: rest =>
    match t.kind with
    | .whitespace => lineEnd rest
    | .comment => afterComment t rest
    | .newline => do checkNewline t; pure rest
    | .eof => .ok (t :: rest)
    | _ => failAt "unexpected key or value, expected newline, `#`" t.start t.start

/-- Skip to the end of the line after a header that named no key; the skipped
tokens are not looked at, but comments and newlines are still checked. -/
def skipLine : List Token → Except ReadError (List Token)
  | [] => .ok []
  | t :: rest =>
    match t.kind with
    | .newline => do checkNewline t; pure rest
    | .eof => .ok (t :: rest)
    | .comment => afterComment t rest
    | _ => skipLine rest

/-- The further parts of a key. With `needKey` a dot has just been read and a
part must follow; a missing one is recorded as an empty part and ends the key
unsuccessfully. Without it, blanks are skipped and a dot asks for another
part. -/
def keyParts (needKey : Bool) : List Token → List KeyPart → List KeyPart × Bool × List Token
  | [], acc => (acc ++ [KeyPart.missing 0], false, [])
  | t :: rest, acc =>
    if needKey then
      if t.kind = .whitespace then keyParts true rest acc
      else if t.kind = .dot then keyParts true rest (acc ++ [KeyPart.missing t.start])
      else if t.kind.isKeyLike then keyParts false rest (acc ++ [KeyPart.ofToken t])
      else (acc ++ [KeyPart.missing t.start], false, t :: rest)
    else
      if t.kind = .whitespace then keyParts false rest acc
      else if t.kind = .dot then keyParts true rest acc
      else (acc, true, t :: rest)

/-- The key of a table header: blanks and dots before its first part are
passed over, each dot standing after a missing part. -/
def headerKey : List Token → List KeyPart → List KeyPart × Bool × List Token
  | [], acc => (acc ++ [KeyPart.missing 0], false, [])
  | t :: rest, acc =>
    if t.kind = .whitespace then headerKey rest acc
    else if t.kind = .dot then headerKey rest (acc ++ [KeyPart.missing t.start])
    else if t.kind.isKeyLike then keyParts false rest (acc ++ [KeyPart.ofToken t])
    else (acc ++ [KeyPart.missing t.start], false, t :: rest)

/-- The text of an unquoted value: the atoms and dots that follow, and an atom
after a blank. Gives the text, its end and the rest. -/
def unquotedRun : List Token → List Char → Nat → List Char × Nat × List Token
  | [], text, stop => (text, stop, [])
  | t :: rest, text, stop =>
    if t.kind = .atom || t.kind = .dot then unquotedRun rest (text ++ t.text) t.stop
    else if t.kind = .whitespace then
      match rest with
      | u :: more =>
        if u.kind = .atom then unquotedRun more (text ++ t.text ++ u.text) u.stop
        else (text, stop, t :: rest)
      | [] => (text, stop, t :: rest)
    else (text, stop, t :: rest)

/-- Where an inline table is: waiting for a key, for `=`, for a value, or for a
comma or the closing brace. -/
inductive InlineState where
  | needKey
  | needEquals
  | needValue
  | needComma
  deriving DecidableEq, Inhabited

/-- What an inline table waits for in a state, as its errors word it. -/
def InlineState.expected : InlineState → String
  | .needKey => "key"
  | .needEquals => "`=`"
  | .needValue => "value"
  | .needComma => "`,`"

/-- The error for a token an inline table does not expect in a state. A key or
an opening bracket where `=` belongs is taken for a missing `=`. -/
def inlineMisplaced {α : Type} (state : InlineState) (t : Token) : Except ReadError α :=
  match state with
  | .needKey => failAt "missing key for inline table element, expected key" t.start t.start
  | .needEquals => failAt "missing assignment between key-value pairs, expected `=`" t.start t.start
  | .needComma => failAt "missing comma between key-value pairs, expected `,`" t.start t.start
  | .needValue => failAt "missing value, expected value" t.start t.start

mutual

/-- Read a value at a nesting depth. A comment, comma, newline or the end
where a value belongs leaves an empty unquoted value and is not taken. `last`
is where the last token of the document that is not a blank, a comment or a
newline ends, where an array or inline table left open is reported. -/
def readValue : Nat → Nat → Nat → List Token → Except ReadError (RawValue × List Token)
  | 0, _, _, _ => failAt "document too long" 0 0
  | _, _, _, [] => .ok (.scalar .atom [] 0 0, [])
  | fuel + 1, last, depth, t :: rest =>
    match t.kind with
    | .comment | .comma | .newline | .eof => .ok (.scalar .atom [] t.start t.start, t :: rest)
    | .whitespace => readValue fuel last depth rest
    | .equals => failAt "extra `=`, expected nothing" t.start t.stop
    | .openBracket =>
      if nestingLimit ≤ depth then failAt "cannot recurse further; max recursion depth met" t.start t.stop
      else readArray fuel last (depth + 1) true [] rest
    | .openBrace =>
      if nestingLimit ≤ depth then failAt "cannot recurse further; max recursion depth met" t.start t.stop
      else readInline fuel last (depth + 1) .needKey [] [] rest
    | .closeBracket => failAt "missing array opening, expected `[`" t.start t.start
    | .closeBrace => failAt "missing inline table opening, expected `\x7b`" t.start t.start
    | .atom | .dot =>
      let (text, stop, left) := unquotedRun rest t.text t.stop
      .ok (.scalar .atom text t.start stop, left)
    | kind => .ok (.scalar kind t.text t.start t.stop, rest)

/-- Read the items of an array after its opening bracket; `needValue` holds
when a value may come next rather than a comma. -/
def readArray : Nat → Nat → Nat → Bool → List RawValue → List Token →
    Except ReadError (RawValue × List Token)
  | 0, _, _, _, _, _ => failAt "document too long" 0 0
  | _, last, _, _, _, [] => failAt "unclosed array, expected `]`" last last
  | fuel + 1, last, depth, needValue, items, t :: rest =>
    match t.kind with
    | .comment => do readArray fuel last depth needValue items (← afterComment t rest)
    | .whitespace => readArray fuel last depth needValue items rest
    | .newline => do checkNewline t; readArray fuel last depth needValue items rest
    | .eof => failAt "unclosed array, expected `]`" last last
    | .comma =>
      if needValue then failAt "extra comma in array, expected value" t.start t.stop
      else readArray fuel last depth true items rest
    | .equals => failAt "unexpected `=` in array, expected value, `]`" t.start t.stop
    | .closeBracket => .ok (.array items, rest)
    | _ =>
      if needValue then do
        let (v, left) ← readValue fuel last depth (t :: rest)
        readArray fuel last depth false (items ++ [v]) left
      else failAt "missing comma between array elements, expected `,`" t.start t.start

/-- Read the pairs of an inline table after its opening brace; `key` is the
key read and waiting for its value. A closing brace where `=` or a value
belongs closes the table with an empty literal string for the value, which
cannot be read later. -/
def readInline : Nat → Nat → Nat → InlineState → List KeyPart → List (List KeyPart × RawValue) →
    List Token → Except ReadError (RawValue × List Token)
  | 0, _, _, _, _, _, _ => failAt "document too long" 0 0
  | _, last, _, _, _, _, [] => failAt "unclosed inline table, expected `\x7d`" last last
  | fuel + 1, last, depth, state, key, pairs, t :: rest =>
    match t.kind with
    | .comment => do readInline fuel last depth state key pairs (← afterComment t rest)
    | .whitespace => readInline fuel last depth state key pairs rest
    | .newline => do checkNewline t; readInline fuel last depth state key pairs rest
    | .eof => failAt "unclosed inline table, expected `\x7d`" last last
    | .comma =>
      match state with
      | .needComma => readInline fuel last depth .needKey [] pairs rest
      | .needKey => failAt "extra comma in inline table, expected key" t.start t.start
      | .needEquals => failAt "extra comma in inline table, expected `=`" t.start t.start
      | .needValue => failAt "extra comma in inline table, expected value" t.start t.start
    | .equals =>
      match state with
      | .needKey => readInline fuel last depth .needValue [KeyPart.missing t.start] pairs rest
      | .needEquals => readInline fuel last depth .needValue key pairs rest
      | .needValue => failAt "extra assignment between key-value pairs, expected value" t.start t.start
      | .needComma => failAt "extra assignment between key-value pairs, expected `,`" t.start t.start
    | .closeBrace =>
      match state with
      | .needKey | .needComma => .ok (.inline pairs, rest)
      | .needEquals | .needValue =>
        .ok (.inline (pairs ++ [(key, .scalar .literal [] t.start t.start)]), rest)
    | .closeBracket => failAt ("invalid inline table element, expected " ++ state.expected) t.start t.stop
    | kind =>
      match state with
      | .needKey =>
        if kind.isKeyLike || kind = .dot then do
          let (parts, _, left) :=
            if kind = .dot then keyParts false (t :: rest) [KeyPart.missing t.start]
            else keyParts false rest [KeyPart.ofToken t]
          readInline fuel last depth .needEquals parts pairs left
        else inlineMisplaced state t
      | .needValue => do
        let (v, left) ← readValue fuel last depth (t :: rest)
        readInline fuel last depth .needComma [] (pairs ++ [(key, v)]) left
      | _ => inlineMisplaced state t

end

/-- Read the value of a pair after its key, and the end of its line. A key
without `=` is worded apart when the line starts with a dot. -/
def readPairValue (fuel last : Nat) (fromDot : Bool) (key : List KeyPart) (tokens : List Token) :
    Except ReadError (Expression × List Token) := do
  let noValue := if fromDot then "missing value for key, expected `=`" else "key with no value, expected `=`"
  match skipBlank tokens with
  | t :: rest =>
    if t.kind = .equals then do
      let (v, left) ← readValue fuel last 0 (skipBlank rest)
      pure (.pair key v, ← lineEnd left)
    else failAt noValue t.start t.start
  | [] => failAt noValue 0 0

/-- Read a table header after its opening bracket. A header that names no key
is kept, so that its empty key is reported later, and the rest of its line is
skipped. -/
def readHeader (rest : List Token) : Except ReadError (Expression × List Token) := do
  let (isArray, rest) : Bool × List Token := match rest with
    | t :: more => if t.kind = .openBracket then (true, more) else (false, rest)
    | [] => (false, [])
  let (key, valid, rest) := headerKey (skipBlank rest) []
  let lastStop := (key.getLast?.map (·.stop)).getD 0
  match skipBlank rest with
  | t :: more =>
    if t.kind = .closeBracket then
      if isArray then
        match more with
        | u :: left =>
          if u.kind = .closeBracket then pure (.header true key, ← lineEnd left)
          else failAt "unclosed array table, expected `]`" t.stop t.stop
        | [] => failAt "unclosed array table, expected `]`" t.stop t.stop
      else pure (.header false key, ← lineEnd more)
    else if valid then
      if isArray then failAt "unclosed array table, expected `]]`" lastStop lastStop
      else failAt "unclosed table, expected `]`" lastStop lastStop
    else pure (.header isArray key, ← skipLine (t :: more))
  | [] => pure (.header isArray key, [])

def readExpressions (last : Nat) : Nat → List Token → List Expression → Except ReadError (List Expression)
  | 0, _, _ => failAt "document too long" 0 0
  | _, [], acc => .ok acc.reverse
  | fuel + 1, t :: rest, acc =>
    match t.kind with
    | .eof => .ok acc.reverse
    | .whitespace => readExpressions last fuel rest acc
    | .newline => do checkNewline t; readExpressions last fuel rest acc
    | .comment => do readExpressions last fuel (← afterComment t rest) acc
    | .openBracket => do
      let (e, left) ← readHeader rest
      readExpressions last fuel left (e :: acc)
    | .closeBracket => failAt "missing table open, expected `[`" t.start t.start
    | .equals => do
      let (e, left) ← readPairValue fuel last false [KeyPart.missing t.start] (t :: rest)
      readExpressions last fuel left (e :: acc)
    | .dot => do
      let (key, _, left) := keyParts false (t :: rest) [KeyPart.missing t.start]
      let (e, left) ← readPairValue fuel last true key left
      readExpressions last fuel left (e :: acc)
    | .comma | .openBrace | .closeBrace => failAt "invalid key-value pair, expected key" t.start t.start
    | _ => do
      let (key, _, left) := keyParts false rest [KeyPart.ofToken t]
      let (e, left) ← readPairValue fuel last false key left
      readExpressions last fuel left (e :: acc)

/-- Where the last token that is not a blank, a comment, a newline or the end
ends. -/
def lastSignificantStop (tokens : List Token) : Nat :=
  tokens.foldl (fun acc t =>
    if t.kind = .whitespace || t.kind = .comment || t.kind = .newline || t.kind = .eof then acc
    else t.stop) 0

/-- The expressions of a document's tokens. Every step takes a token, so twice
their number bounds the reading. -/
def readTokens (tokens : List Token) : Except ReadError (List Expression) :=
  readExpressions (lastSignificantStop tokens) (2 * tokens.length + 2) tokens []

end Toml

end LayeredConfig
