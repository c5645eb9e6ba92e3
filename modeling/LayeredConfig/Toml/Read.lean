import LayeredConfig.Toml.Lex
import LayeredConfig.Toml.Grammar
import LayeredConfig.Toml.Document
import LayeredConfig.Tree.Basic
import LayeredConfig.Number.Binary64

/-! Reading TOML documents (version 1.1) into trees, in three stages: the
tokens are read into expressions (`Toml.Grammar`), the expressions assembled
into tables (`Toml.Document`), and the tables turned into a tree here. A
problem of the first stage anywhere in the text is reported before any problem
of the later ones.

Tables become objects with their keys in byte order, and they are turned into
trees in that order, so the first number out of range in that order is the one
reported. Integers range over signed and unsigned 64-bit words; beyond them but
within 128 bits a number is out of the tree's range, and beyond that it
overflows. Floats are rounded to the nearest double; a finite float that rounds
to infinity overflows, while `inf` and `nan` have no tree form and read as
`null`. Dates and times become an object with the single key
`$__toml_private_datetime` holding the value's normal text.

`render` lays a failure out with the line it is on and a caret under its
span. -/

namespace LayeredConfig

namespace Toml

/-- The value of digits in a radix, if they all are digits of it. -/
def radixValue? (radix : Nat) (cs : List Char) : Option Nat :=
  cs.foldlM (fun acc ch => (hexValue? ch).bind fun d => if d < radix then some (acc * radix + d) else none) 0

def integerNumber (text : List Char) (radix : Nat) : Except String Value :=
  let (negative, digits) := match text with
    | '-' :: rest => (true, rest)
    | '+' :: rest => (false, rest)
    | _ => (false, text)
  match (if digits.isEmpty then none else radixValue? radix digits) with
  | none => .error "integer number overflowed"
  | some v =>
    if negative then
      if v ≤ Nat.pow 2 63 then .ok (.num (.int (-(v : Int))))
      else if v ≤ Nat.pow 2 127 then .error "JSON number out of range"
      else .error "integer number overflowed"
    else if v < Nat.pow 2 64 then .ok (.num (.int v))
    else if v < Nat.pow 2 128 then .error "JSON number out of range"
    else .error "integer number overflowed"

def decimalDouble (negative : Bool) (digits : Nat) (exponent : Int) : Binary64 :=
  if digits = 0 then Binary64.zero negative
  else
    let size := (toString digits).length
    if 310 < size + exponent then Binary64.infinity negative
    else if size + exponent < -330 then Binary64.zero negative
    else if 0 ≤ exponent then Binary64.round negative (digits * Nat.pow 10 exponent.toNat) 1 0
    else Binary64.round negative digits (Nat.pow 10 (-exponent).toNat) 0

def decimalParts (body : List Char) : Option (Nat × Int) := do
  let (whole, rest) := spanWhile Char.isDigit body
  let (fraction, rest) := match rest with
    | '.' :: more => spanWhile Char.isDigit more
    | _ => ([], rest)
  let exponent ← match rest with
    | [] => some (0 : Int)
    | e :: more =>
      if e = 'e' || e = 'E' then
        let (negative, digits) := match more with
          | '-' :: ds => (true, ds)
          | '+' :: ds => (false, ds)
          | _ => (false, more)
        if digits.isEmpty || !digits.all Char.isDigit then none
        else
          let v : Int := digitsNat digits
          some (if negative then -v else v)
      else none
  if whole.isEmpty then none
  else some (digitsNat (whole ++ fraction), exponent - fraction.length)

def floatNumber (text : List Char) : Except String Value :=
  let (negative, body) := match text with
    | '-' :: rest => (true, rest)
    | '+' :: rest => (false, rest)
    | _ => (false, text)
  if body = "inf".toList || body = "nan".toList then .ok .null
  else
    match decimalParts body with
    | none => .error "invalid float"
    | some (digits, exponent) =>
      let x := decimalDouble negative digits exponent
      if x.isFinite then .ok (.num (.float x)) else .error "floating-point number overflowed"

def scalarTree (s : Scalar) (start stop : Nat) : Except ReadError Value :=
  let atSpan (r : Except String Value) : Except ReadError Value :=
    match r with
    | .ok v => .ok v
    | .error message => failAt message start stop
  match s with
  | .str t => .ok (.str t)
  | .bool b => .ok (.bool b)
  | .datetime t => .ok (.obj [("$__toml_private_datetime", .str t)])
  | .integer text radix => atSpan (integerNumber text radix)
  | .float text => atSpan (floatNumber text)

/-- Fields in byte order of their keys. -/
def sortFields {α : Type} (fs : List (String × α)) : List (String × α) :=
  fs.mergeSort fun a b => !(b.1 < a.1)

mutual

/-- The tree of a node: tables with their fields in key order, the first
failure in that order reported. -/
def Item.toTree : Item → Except ReadError Value
  | .scalar s start stop => scalarTree s start stop
  | .array items _ => Value.arr <$> itemsTrees items
  | .table fields _ => do
    let fs ← (sortFields (fieldsTrees fields)).mapM fun (k, r) => r.map fun v => (k, v)
    pure (.obj fs)

def itemsTrees : List Item → Except ReadError (List Value)
  | [] => .ok []
  | item :: rest => do
    let v ← item.toTree
    let vs ← itemsTrees rest
    pure (v :: vs)

def fieldsTrees : List (String × Item) → List (String × Except ReadError Value)
  | [] => []
  | (k, item) :: rest => (k, item.toTree) :: fieldsTrees rest

end

def parse (text : String) : Except ReadError Value := do
  let expressions ← readTokens (tokenize text)
  let root ← assemble expressions
  Item.toTree (.table root .defined)

/-- The line and column (counting characters, from zero) of a byte offset. -/
def position (bytes : List UInt8) (index : Nat) : Nat × Nat :=
  if bytes.isEmpty then (0, index)
  else
    let safe := min index (bytes.length - 1)
    let extra := index - safe
    let before := bytes.take safe
    let lineStart := match (before.reverse.idxOf? 10) with
      | some k => safe - k
      | none => 0
    let line := (bytes.take lineStart).count 10
    let lineBytes := (bytes.drop lineStart).take (safe + 1 - lineStart)
    let column := match String.fromUTF8? (ByteArray.mk lineBytes.toArray) with
      | some s => s.length - 1
      | none => safe - lineStart
    (line, column + extra)

/-- The failure laid out with the line it is on and a caret under its span. -/
def ReadError.render (e : ReadError) (source : String) : String :=
  if !e.located then e.message ++ "\n" else
  let bytes := source.toUTF8.toList
  let (line, column) := position bytes e.start
  let lineNum := toString (line + 1)
  let gutter := String.ofList (List.replicate (lineNum.length + 1) ' ')
  let content := (source.splitOn "\n").getD line ""
  let width := min (e.stop - e.start) (content.utf8ByteSize - column)
  let carets := String.ofList (List.replicate (max width 1) '^')
  "TOML parse error at line " ++ lineNum ++ ", column " ++ toString (column + 1) ++ "\n" ++
    gutter ++ "|\n" ++
    lineNum ++ " | " ++ content ++ "\n" ++
    gutter ++ "|" ++ String.ofList (List.replicate (column + 1) ' ') ++ carets ++ "\n" ++
    e.message ++ "\n"

end Toml

end LayeredConfig
