import LayeredConfig.Tree.Path

/-! Walking the string leaves of a tree in pre-order: object fields in their
order, array items by index. A visitor sees each leaf with its path and answers
keep, replace or remove, or fails. A replacement is written at once. A removed
array item becomes `null` at once; removed object keys are erased when their
object has been walked to the end. A failure stops the walk; the tree keeps the
writes made before it, and keys removed in objects not yet finished stay. -/

namespace LayeredConfig

/-- What a visitor does with a leaf. -/
inductive Visit where
  | keep
  | replace (value : Value)
  | remove
  deriving Inhabited

namespace Value

variable {m : Type → Type} [Monad m] {ε : Type}

/-- Apply a visitor's answer to a slot of an array. -/
def settleItem (item : Value) : Visit → Value
  | .keep => item
  | .replace v => v
  | .remove => .null

mutual

/-- Walk a node at a path: the node as changed so far, and the answer for the
node itself (containers answer keep) or the failure that stopped the walk. -/
def walkNode (visit : KeyPath → String → m (Except ε Visit)) (path : KeyPath) :
    Value → m (Value × Except ε Visit)
  | .str s => do return (.str s, ← visit path s)
  | .arr items => do
    let (items', failure) ← walkItems visit path 0 items
    return (.arr items', match failure with | some e => .error e | none => .ok .keep)
  | .obj fields => do
    let (fields', removed, failure) ← walkFields visit path fields
    match failure with
    | some e => return (.obj fields', .error e)
    | none => return (.obj (removed.foldl Fields.erase fields'), .ok .keep)
  | .null => return (.null, .ok .keep)
  | .bool b => return (.bool b, .ok .keep)
  | .num n => return (.num n, .ok .keep)

def walkItems (visit : KeyPath → String → m (Except ε Visit)) (path : KeyPath) (i : Nat) :
    List Value → m (List Value × Option ε)
  | [] => return ([], none)
  | item :: rest => do
    let (item', answer) ← walkNode visit (path ++ [.index i]) item
    match answer with
    | .error e => return (item' :: rest, some e)
    | .ok a =>
      let (rest', failure) ← walkItems visit path (i + 1) rest
      return (settleItem item' a :: rest', failure)

/-- Walk object fields; the keys to remove come back apart. -/
def walkFields (visit : KeyPath → String → m (Except ε Visit)) (path : KeyPath) :
    List (String × Value) → m (List (String × Value) × List String × Option ε)
  | [] => return ([], [], none)
  | (k, child) :: rest => do
    let (child', answer) ← walkNode visit (path ++ [.key k]) child
    match answer with
    | .error e => return ((k, child') :: rest, [], some e)
    | .ok a =>
      let (rest', removed, failure) ← walkFields visit path rest
      match a with
      | .keep => return ((k, child') :: rest', removed, failure)
      | .replace v => return ((k, v) :: rest', removed, failure)
      | .remove => return ((k, child') :: rest', k :: removed, failure)

end

/-- Walk a whole tree: the tree as changed, and the failure that stopped the
walk, if any. A removed root becomes `null`. -/
def walk (visit : KeyPath → String → m (Except ε Visit)) (tree : Value) :
    m (Value × Option ε) := do
  let (tree', answer) ← walkNode visit [] tree
  match answer with
  | .error e => return (tree', some e)
  | .ok a => return (settleItem tree' a, none)

end Value

end LayeredConfig
