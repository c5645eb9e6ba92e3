import LayeredConfig.Tree.Path
import LayeredConfig.Text.Quoted
import LayeredConfig.Json.Write

/-! Structure dumps of trees and key paths, as the debugging texts of the
library show them: each node names its kind, `Null`, `Bool(true)`,
`Number(1.5)`, `String("x")`, `Array [..]` and `Object {..}`, with texts quoted
and escaped as in `Text.quote`, numbers written as in JSON, and items and fields
separated by `", "`. A key path is a list of `Key("k")` and `Index(0)` steps. -/

namespace LayeredConfig

namespace Value

mutual

def dump : Value → String
  | .null => "Null"
  | .bool b => if b then "Bool(true)" else "Bool(false)"
  | .num n => "Number(" ++ Json.numberText n ++ ")"
  | .str s => "String(" ++ Text.quote s ++ ")"
  | .arr items => "Array [" ++ dumpItems items ++ "]"
  | .obj fields => "Object \x7b" ++ dumpFields fields ++ "\x7d"

def dumpItems : List Value → String
  | [] => ""
  | [v] => dump v
  | v :: rest => dump v ++ ", " ++ dumpItems rest

def dumpFields : List (String × Value) → String
  | [] => ""
  | [(k, v)] => Text.quote k ++ ": " ++ dump v
  | (k, v) :: rest => Text.quote k ++ ": " ++ dump v ++ ", " ++ dumpFields rest

end

end Value

def Step.dump : Step → String
  | .key k => "Key(" ++ Text.quote k ++ ")"
  | .index i => "Index(" ++ toString i ++ ")"

def KeyPath.dump (p : KeyPath) : String :=
  "KeyPath([" ++ ", ".intercalate (p.map Step.dump) ++ "])"

end LayeredConfig
