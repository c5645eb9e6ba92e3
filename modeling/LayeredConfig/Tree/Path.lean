import LayeredConfig.Tree.Basic
import LayeredConfig.Json.Write

/-! Key paths: the place of a node in a tree as a list of steps, an object key or
an array index. A path is written as a compact JSON array of its steps, such as
`["e",2]`, and `[]` for the root.

Following a path goes through objects by key and through arrays by index and
stops anywhere else. Assigning at a path changes the parent of its last step:
an object gets the key set (in place when present, appended otherwise) or
erased, an array slot in range gets the value or `null`; a missing parent, an
index out of range or a step of the wrong kind change nothing and report it. -/

namespace LayeredConfig

inductive Step where
  | key (name : String)
  | index (position : Nat)
  deriving DecidableEq, Inhabited

/-- The place of a node, from the root down. -/
abbrev KeyPath := List Step

namespace KeyPath

def render (p : KeyPath) : String :=
  let step : Step → String
    | .key k => Json.quote k
    | .index i => toString i
  "[" ++ ",".intercalate (p.map step) ++ "]"

end KeyPath

namespace Value

def child? : Value → Step → Option Value
  | .obj fields, .key k => Fields.get? fields k
  | .arr items, .index i => items[i]?
  | _, _ => none

def get? (v : Value) : KeyPath → Option Value
  | [] => some v
  | s :: rest => (v.child? s).bind fun c => c.get? rest

/-- Write `value` (or erase, when it is absent) at the last step below `v`. -/
def assignStep : Value → Step → Option Value → Option Value
  | .obj fields, .key k, some value => some (.obj (Fields.set fields k value))
  | .obj fields, .key k, none => some (.obj (Fields.erase fields k))
  | .arr items, .index i, value =>
    if i < items.length then some (.arr (items.set i (value.getD .null))) else none
  | _, _, _ => none

/-- Assign at a path; `none` when the path does not lead to a place. -/
def assign? (v : Value) (path : KeyPath) (value : Option Value) : Option Value :=
  match path with
  | [] => some (value.getD .null)
  | [s] => v.assignStep s value
  | s :: rest =>
    match v, s with
    | .obj fields, .key k =>
      (Fields.modify? fields k fun c => c.assign? rest value).map .obj
    | .arr items, .index i =>
      match items[i]? with
      | some c => (c.assign? rest value).map fun c' => .arr (items.set i c')
      | none => none
    | _, _ => none

/-- Assign at a path, reporting whether it took place; the tree is unchanged
when it did not. -/
def assign (v : Value) (path : KeyPath) (value : Option Value) : Bool × Value :=
  match v.assign? path value with
  | some w => (true, w)
  | none => (false, v)

end Value

end LayeredConfig
