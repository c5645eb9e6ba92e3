import LayeredConfig.Tree.Basic
import LayeredConfig.Number.Shortest

/-! Writing trees as TOML documents. The root must be an object and nothing in
the tree may be `null`, which TOML cannot express; the first value in document
order that breaks this names the failure. Integers are written in full, up to
`2 ^ 64 - 1`.

A table lists its plain keys first, one `key = value` line each, then its
sub-tables, each under a `[path]` header preceded by a blank line; an array whose
items are all objects is an array of tables, one `[[path]]` header per item. A
table whose keys all hold tables gets no header of its own, but an empty one
does. Objects inside arrays are written inline as `{ key = value, .. }`; arrays
of two items or more put each item on a line of its own, indented by four
spaces and followed by a comma.

Keys are bare when they are made of letters, digits, `-` and `_`. Texts are
written between double quotes when nothing in them needs escaping, otherwise
between single quotes when that is possible, otherwise as multi-line texts when
they hold newlines, and otherwise between double quotes with escapes. Floats are
written positionally, with `.0` after whole numbers. -/

namespace LayeredConfig

namespace Toml

/-- The features of a text that decide how it is written. -/
structure TextShape where
  singles : Nat := 0
  doubles : Nat := 0
  runSingles : Nat := 0
  runDoubles : Nat := 0
  controls : Bool := false
  backslash : Bool := false
  newline : Bool := false

def TextShape.add (t : TextShape) (ch : Char) : TextShape :=
  let runS := if ch.toNat = 39 then t.runSingles + 1 else 0
  let runD := if ch = '"' then t.runDoubles + 1 else 0
  { t with runSingles := runS, runDoubles := runD, singles := max t.singles runS,
           doubles := max t.doubles runD,
           backslash := t.backslash || ch = '\\',
           newline := t.newline || ch = '\n',
           controls := t.controls ||
             (ch != '\t' && ch != '\n' && (ch.toNat < 32 || ch.toNat = 127)) }

def textShape (s : String) : TextShape := s.toList.foldl TextShape.add {}

def hex4 (n : Nat) : List Char :=
  let d (k : Nat) : Char := if k < 10 then Char.ofNat (48 + k) else Char.ofNat (55 + k)
  [d (n / 4096 % 16), d (n / 256 % 16), d (n / 16 % 16), d (n % 16)]

/-- One character inside double quotes; newlines stay as they are in
multi-line texts. -/
def escapeChar (multiline : Bool) (ch : Char) : List Char :=
  if ch.toNat = 8 then ['\\', 'b']
  else if ch = '\t' then ['\\', 't']
  else if ch = '\n' then (if multiline then ['\n'] else ['\\', 'n'])
  else if ch.toNat = 12 then ['\\', 'f']
  else if ch = '\r' then ['\\', 'r']
  else if ch = '"' && !multiline then ['\\', '"']
  else if ch = '\\' then ['\\', '\\']
  else if ch.toNat < 32 || ch.toNat = 127 then ['\\', 'u'] ++ hex4 ch.toNat
  else [ch]

def basicText (s : String) : String :=
  String.ofList ('"' :: s.toList.flatMap (escapeChar false) ++ ['"'])

def literalText (s : String) : String :=
  String.ofList (Char.ofNat 39 :: s.toList ++ [Char.ofNat 39])

/-- The characters of a multi-line text between double quotes: escapes as in
`escapeChar`, and every third double quote of a run escaped, so that no three
stand together. `run` counts the unescaped quotes just written. -/
def multilineChars : Nat → List Char → List Char
  | _, [] => []
  | run, ch :: rest =>
    if ch = '"' then
      if run = 2 then '\\' :: '"' :: multilineChars 0 rest
      else '"' :: multilineChars (run + 1) rest
    else escapeChar true ch ++ multilineChars 0 rest

def multilineBasicText (s : String) (newline : Bool) : String :=
  "\"\"\"" ++ (if newline then "\n" else "") ++ String.ofList (multilineChars 0 s.toList) ++
    "\"\"\""

def multilineLiteralText (s : String) (newline : Bool) : String :=
  let q := String.ofList (List.replicate 3 (Char.ofNat 39))
  q ++ (if newline then "\n" else "") ++ s ++ q

def stringText (s : String) : String :=
  let t := textShape s
  if !t.controls && !t.backslash && t.doubles = 0 && !t.newline then basicText s
  else if !t.controls && t.singles = 0 && !t.newline then literalText s
  else if !t.controls && !t.backslash && t.doubles ≤ 2 then multilineBasicText s t.newline
  else if !t.controls && t.singles ≤ 2 then multilineLiteralText s t.newline
  else if t.newline then multilineBasicText s true
  else basicText s

def isBareKey (k : String) : Bool :=
  !k.isEmpty && k.all fun ch => ch.isAlphanum || ch = '-' || ch = '_'

def keyText (k : String) : String :=
  let t := textShape k
  if isBareKey k then k
  else if !t.controls && !t.backslash && t.doubles = 0 && !t.newline then basicText k
  else if !t.controls && t.singles = 0 && !t.newline then literalText k
  else basicText k

/-- A float: positional, with `.0` after whole numbers. -/
def floatText (x : Binary64) : String :=
  if x.isNaN then (if x.signField then "-nan" else "nan")
  else if x.isZero then (if x.signField then "-0.0" else "0.0")
  else if x.isFinite && x.isIntegral then x.toPositionalText ++ ".0"
  else x.toPositionalText

/-- Why a single value cannot be written: `null` has no TOML form. -/
def unwritable? : Value → Option String
  | .null => some "unsupported unit type"
  | _ => none

mutual

/-- The first value of a tree, in document order, that cannot be written, and
why. -/
def firstUnwritable? : Value → Option String
  | .arr items => itemsUnwritable? items
  | .obj fields => fieldsUnwritable? fields
  | v => unwritable? v

def itemsUnwritable? : List Value → Option String
  | [] => none
  | v :: rest => (firstUnwritable? v).or (itemsUnwritable? rest)

def fieldsUnwritable? : List (String × Value) → Option String
  | [] => none
  | (_, v) :: rest => (firstUnwritable? v).or (fieldsUnwritable? rest)

end

mutual

def valueText : Value → String
  | .null => ""
  | .bool b => if b then "true" else "false"
  | .num (.int i) => toString i
  | .num (.float x) => floatText x
  | .str s => stringText s
  | .arr items => arrayText items
  | .obj [] => "\x7b\x7d"
  | .obj fields => "\x7b " ++ inlinePairs fields ++ " \x7d"

/-- An array: inline with one item at most, otherwise one item a line. -/
def arrayText : List Value → String
  | [] => "[]"
  | v :: rest =>
    match rest with
    | [] => "[" ++ valueText v ++ "]"
    | _ => "[\n    " ++ valueText v ++ "," ++ itemLines rest ++ "\n]"

def itemLines : List Value → String
  | [] => ""
  | v :: rest => "\n    " ++ valueText v ++ "," ++ itemLines rest

def inlinePairs : List (String × Value) → String
  | [] => ""
  | [(k, v)] => keyText k ++ " = " ++ valueText v
  | (k, v) :: rest => keyText k ++ " = " ++ valueText v ++ ", " ++ inlinePairs rest

end

/-- Whether an array is written as an array of tables. -/
def isTableArray (items : List Value) : Bool :=
  !items.isEmpty && items.all fun | .obj _ => true | _ => false

def holdsTables : Value → Bool
  | .obj _ => true
  | .arr items => isTableArray items
  | _ => false

def pairLines (fields : List (String × Value)) : String :=
  String.join ((fields.filter fun f => !holdsTables f.2).map fun (k, v) =>
    keyText k ++ " = " ++ valueText v ++ "\n")

/-- A table below the root: its key path, whether it is an item of an array of
tables, and its fields. -/
structure Section where
  path : List String
  isItem : Bool
  fields : List (String × Value)

mutual

/-- The tables below some fields, depth first in order. -/
def sectionsOf (path : List String) : List (String × Value) → List Section
  | [] => []
  | (k, .obj fs) :: rest => (⟨path ++ [k], false, fs⟩ :: sectionsOf (path ++ [k]) fs) ++ sectionsOf path rest
  | (k, .arr items) :: rest =>
    (if isTableArray items then itemSections (path ++ [k]) items else []) ++ sectionsOf path rest
  | _ :: rest => sectionsOf path rest

def itemSections (path : List String) : List Value → List Section
  | [] => []
  | .obj fs :: rest => (⟨path, true, fs⟩ :: sectionsOf path fs) ++ itemSections path rest
  | _ :: rest => itemSections path rest

end

/-- Write the sections after the root, each header preceded by a blank line
unless nothing has been written yet. -/
def writeSections : Bool → List Section → String
  | _, [] => ""
  | first, s :: rest =>
    let body := pairLines s.fields
    let header := ".".intercalate (s.path.map keyText)
    if s.isItem || s.fields.isEmpty || !body.isEmpty then
      (if first then "" else "\n") ++ (if s.isItem then "[[" ++ header ++ "]]" else "[" ++ header ++ "]") ++
        "\n" ++ body ++ writeSections false rest
    else writeSections first rest

def render (v : Value) : Except String String :=
  match v with
  | .obj fields =>
    match fieldsUnwritable? fields with
    | some reason => .error reason
    | none =>
      let rootBody := pairLines fields
      .ok (rootBody ++ writeSections rootBody.isEmpty (sectionsOf [] fields))
  | .null => .error "unsupported unit type"
  | _ => .error "unsupported rust type"

end Toml

end LayeredConfig
