/-! Splitting a TOML document into tokens. Punctuation, blanks, comments and
newlines are tokens of their own; strings run from their opening quote to the
closing one, a one-line string stopping early at a newline and any string at the
end of the text, so that an unterminated string is still a token and its
decoding reports what is missing; everything else up to punctuation or a blank
is an *atom*: bare keys, numbers, booleans and the pieces of dates. A float such
as `1.5` is three tokens here, joined again when a value is read.

Every token keeps its text and its byte span, and the list ends with an empty
end-of-input token. A byte order mark at the start is skipped, and spans still
count its three bytes. -/

namespace LayeredConfig

namespace Toml

/-- A failure to read a document: what is wrong and the byte span concerned,
unless it concerns no place in the text. -/
structure ReadError where
  message : String
  start : Nat
  stop : Nat
  located : Bool
  deriving Inhabited

inductive TokenKind where
  | dot
  | equals
  | comma
  | openBracket
  | closeBracket
  | openBrace
  | closeBrace
  | whitespace
  | comment
  | newline
  | literal
  | basic
  | mlLiteral
  | mlBasic
  | atom
  | eof
  deriving DecidableEq, Inhabited, Repr

/-- A token: its kind, its text and its byte span. -/
structure Token where
  kind : TokenKind
  text : List Char
  start : Nat
  stop : Nat
  deriving Inhabited

def TokenKind.isKeyLike : TokenKind → Bool
  | .literal | .basic | .mlLiteral | .mlBasic | .atom => true
  | _ => false

def TokenKind.isString : TokenKind → Bool
  | .literal | .basic | .mlLiteral | .mlBasic => true
  | _ => false

def apostrophe : Char := Char.ofNat 39

def byteLength (cs : List Char) : Nat := (cs.map Char.utf8Size).foldr (· + ·) 0

/-- Characters that end an atom. Quotes do not: a string whose opening quote
is missing stays part of the atom around it. -/
def endsAtom (ch : Char) : Bool :=
  ch = '.' || ch = '=' || ch = ',' || ch = '[' || ch = ']' || ch = '{' || ch = '}' ||
    ch = ' ' || ch = '\t' || ch = '#' || ch = '\r' || ch = '\n'

def spanWhile (p : Char → Bool) : List Char → List Char × List Char
  | [] => ([], [])
  | ch :: rest =>
    if p ch then
      let (taken, left) := spanWhile p rest
      (ch :: taken, left)
    else ([], ch :: rest)

/-- Split a one-line literal string after its opening apostrophe: up to and with
the closing apostrophe, or up to a newline or the end. -/
def literalBody : List Char → List Char × List Char
  | [] => ([], [])
  | ch :: rest =>
    if ch = apostrophe then ([ch], rest)
    else if ch = '\n' then ([], ch :: rest)
    else
      let (taken, left) := literalBody rest
      (ch :: taken, left)

/-- Split a one-line basic string after its opening quote: up to and with the
closing quote, or up to a newline or the end. A backslash takes a following
backslash or quote with it. -/
def basicBody : List Char → List Char × List Char
  | [] => ([], [])
  | '"' :: rest => (['"'], rest)
  | '\n' :: rest => ([], '\n' :: rest)
  | '\\' :: ch :: rest =>
    if ch = '\\' || ch = '"' then
      let (taken, left) := basicBody rest
      ('\\' :: ch :: taken, left)
    else
      let (taken, left) := basicBody (ch :: rest)
      ('\\' :: taken, left)
  | ch :: rest =>
    let (taken, left) := basicBody rest
    (ch :: taken, left)

/-- Take up to two more delimiters after a closing triple, which belong to the
string's text. -/
def extraDelimiters (quote : Char) : List Char → List Char × List Char
  | a :: b :: rest =>
    if a = quote then (if b = quote then ([a, b], rest) else ([a], b :: rest)) else ([], a :: b :: rest)
  | [a] => if a = quote then ([a], []) else ([], [a])
  | [] => ([], [])

/-- Split a multi-line literal string after its opening triple: up to the first
closing triple and up to two apostrophes after it, or to the end. -/
def mlLiteralBody : List Char → List Char × List Char
  | [] => ([], [])
  | a :: b :: c :: rest =>
    if a = apostrophe && b = apostrophe && c = apostrophe then
      let (extra, left) := extraDelimiters apostrophe rest
      ([a, b, c] ++ extra, left)
    else
      let (taken, left) := mlLiteralBody (b :: c :: rest)
      (a :: taken, left)
  | a :: rest =>
    let (taken, left) := mlLiteralBody rest
    (a :: taken, left)

/-- Split a multi-line basic string after its opening triple: up to the first
closing triple not taken by a backslash and up to two quotes after it, or to the
end. -/
def mlBasicBody : List Char → List Char × List Char
  | [] => ([], [])
  | '\\' :: ch :: rest =>
    if ch = '\\' || ch = '"' then
      let (taken, left) := mlBasicBody rest
      ('\\' :: ch :: taken, left)
    else
      let (taken, left) := mlBasicBody (ch :: rest)
      ('\\' :: taken, left)
  | '"' :: '"' :: '"' :: rest =>
    let (extra, left) := extraDelimiters '"' rest
    (['"', '"', '"'] ++ extra, left)
  | a :: rest =>
    let (taken, left) := mlBasicBody rest
    (a :: taken, left)

/-- The next token's kind and text, and the rest of the input, for a non-empty
input. -/
def nextToken (ch : Char) (rest : List Char) : TokenKind × List Char × List Char :=
  match ch with
  | '.' => (.dot, [ch], rest)
  | '=' => (.equals, [ch], rest)
  | ',' => (.comma, [ch], rest)
  | '[' => (.openBracket, [ch], rest)
  | ']' => (.closeBracket, [ch], rest)
  | '{' => (.openBrace, [ch], rest)
  | '}' => (.closeBrace, [ch], rest)
  | ' ' | '\t' =>
    let (more, left) := spanWhile (fun c => c = ' ' || c = '\t') rest
    (.whitespace, ch :: more, left)
  | '#' =>
    let (more, left) := spanWhile (fun c => c != '\r' && c != '\n') rest
    (.comment, ch :: more, left)
  | '\r' =>
    match rest with
    | '\n' :: left => (.newline, ['\r', '\n'], left)
    | _ => (.newline, ['\r'], rest)
  | '\n' => (.newline, [ch], rest)
  | '"' =>
    match rest with
    | '"' :: '"' :: more =>
      let (body, left) := mlBasicBody more
      (.mlBasic, ['"', '"', '"'] ++ body, left)
    | _ =>
      let (body, left) := basicBody rest
      (.basic, '"' :: body, left)
  | _ =>
    if ch = apostrophe then
      match rest with
      | a :: b :: more =>
        if a = apostrophe && b = apostrophe then
          let (body, left) := mlLiteralBody more
          (.mlLiteral, [ch, a, b] ++ body, left)
        else
          let (body, left) := literalBody rest
          (.literal, ch :: body, left)
      | _ =>
        let (body, left) := literalBody rest
        (.literal, ch :: body, left)
    else
      let (more, left) := spanWhile (!endsAtom ·) rest
      (.atom, ch :: more, left)

/-- The tokens of a text starting at a byte offset, ending with the
end-of-input token. Every token takes at least one character, so `fuel` set to
the length of the text suffices. -/
def tokensFrom : Nat → List Char → Nat → List Token
  | _, [], pos => [⟨.eof, [], pos, pos⟩]
  | 0, _, pos => [⟨.eof, [], pos, pos⟩]
  | fuel + 1, ch :: rest, pos =>
    let (kind, text, left) := nextToken ch rest
    let stop := pos + byteLength text
    ⟨kind, text, pos, stop⟩ :: tokensFrom fuel left stop

/-- The tokens of a document, skipping a byte order mark. -/
def tokenize (text : String) : List Token :=
  match text.toList with
  | first :: rest =>
    if first.toNat = 0xFEFF then tokensFrom rest.length rest 3
    else tokensFrom (rest.length + 1) (first :: rest) 0
  | [] => tokensFrom 0 [] 0

end Toml

end LayeredConfig
