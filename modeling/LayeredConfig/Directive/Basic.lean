import LayeredConfig.Tree.Basic

/-! Directives: a string leaf `TAG:payload` whose tag is one of `RAW`, `HEXSTR`,
`B64STR`, `ENV`, `FILE`, `OBF`, `BOOL`, `INT`, `INT16`, `INT8`, `CONFIG`, or
`SFILE` followed by a byte count, asks for the payload to be resolved. The tag
must start the leaf and be followed by a colon; the payload is everything after
the first colon, newlines included. The byte count of `SFILE` is decimal, may
have leading zeros and must fit in 64 bits; otherwise the leaf is plain text. -/

namespace LayeredConfig

/-- What a directive does with its payload. -/
inductive Operator where
  | raw
  | hexText
  | base64Text
  | env
  | file
  | secretFile (bytes : Nat)
  | bool
  | int (radix : Nat)
  | config
  | obfuscated
  deriving DecidableEq, Inhabited

namespace Operator

/-- The name of an operator as written in a leaf; a secret file shows its byte
count and an integer operator other than decimal its radix. -/
def name : Operator → String
  | .raw => "RAW"
  | .hexText => "HEXSTR"
  | .base64Text => "B64STR"
  | .env => "ENV"
  | .file => "FILE"
  | .secretFile n => "SFILE" ++ toString n
  | .bool => "BOOL"
  | .int 10 => "INT"
  | .int r => "INT" ++ toString r
  | .config => "CONFIG"
  | .obfuscated => "OBF"

/-- The operator of a tag and its optional number: the plain tags take no
number, and any tag starting with `SFILE` takes one. -/
def ofTag? (tag : String) (count : Option Nat) : Option Operator :=
  match count with
  | none =>
    if tag = "RAW" then some .raw
    else if tag = "HEXSTR" then some .hexText
    else if tag = "B64STR" then some .base64Text
    else if tag = "ENV" then some .env
    else if tag = "FILE" then some .file
    else if tag = "BOOL" then some .bool
    else if tag = "INT" then some (.int 10)
    else if tag = "INT16" then some (.int 16)
    else if tag = "INT8" then some (.int 8)
    else if tag = "CONFIG" then some .config
    else if tag = "OBF" then some .obfuscated
    else none
  | some n => if tag.startsWith "SFILE" then some (.secretFile n) else none

/-- The plain tags in the order they are tried. -/
def plainTags : List String :=
  ["RAW", "HEXSTR", "B64STR", "ENV", "FILE", "OBF", "BOOL", "INT", "INT16", "INT8", "CONFIG"]

end Operator

structure Directive where
  operator : Operator
  payload : String
  deriving DecidableEq, Inhabited

namespace Directive

/-- A decimal count that fits in 64 bits. -/
def count? (digits : List Char) : Option Nat :=
  let n := digits.foldl (fun acc d => acc * 10 + (d.toNat - 48)) 0
  if digits.isEmpty || Nat.pow 2 64 ≤ n then none else some n

def parse (leaf : String) : Option Directive :=
  let cs := leaf.toList
  let plain := Operator.plainTags.findSome? fun tag =>
    let t := tag.toList
    if cs.take (t.length + 1) == t ++ [':'] then
      (Operator.ofTag? tag none).map fun op => ⟨op, String.ofList (cs.drop (t.length + 1))⟩
    else none
  match plain with
  | some d => some d
  | none =>
    if cs.take 5 == "SFILE".toList then
      let rest := cs.drop 5
      let digits := rest.takeWhile Char.isDigit
      match rest.drop digits.length with
      | ':' :: payload =>
        (count? digits).bind fun n =>
          (Operator.ofTag? ("SFILE" ++ String.ofList digits) (some n)).map fun op =>
            ⟨op, String.ofList payload⟩
      | _ => none
    else none

end Directive

end LayeredConfig
