import LayeredConfig.Toml.Decode

/-! Assembling the expressions of a TOML document into tables.

Expressions are taken in order: a key's parts are decoded, then its value
(arrays item by item, inline tables pair by pair), then the pair is added to
the table being filled. A header first files the table it ends, then its key
is decoded and its table opened.

A table remembers how it came to be: *implicit* when it exists only because a
longer key or header named it, *dotted* when a dotted key created it, *inline*
when it was written as a value. The rules of the format follow from these:

* a key is defined once, and has at most `nestingLimit` parts before its last;
* a dotted key may pass through a table it or another dotted key created, or
  one that exists only implicitly, but not through a table defined by a header;
  for a key without dots, the table being filled must not be one that dotted
  keys created, and for a dotted key the table reached must be;
* nothing passes through an inline table, an array that is not an array of
  tables, or a scalar ("cannot extend value of type …");
* a `[header]` may define a table that exists only implicitly and was not made
  by dotted keys, and no other;
* `[[header]]` appends a table to an array of tables, and a key or header that
  passes through such an array goes into its last table.

The table of a header is filled apart from the others and filed under its key
when the next header comes or the document ends, so a clash of an array-of-tables
header is reported only then. The first problem found is reported. -/

namespace LayeredConfig

namespace Toml

/-- How a table came to be. -/
structure TableOrigin where
  implicit : Bool
  dotted : Bool
  inline : Bool
  deriving DecidableEq, Inhabited

/-- A table defined by a header or holding the document's top level. -/
def TableOrigin.defined : TableOrigin := ⟨false, false, false⟩

/-- A node of a document being assembled. -/
inductive Item where
  | scalar (value : Scalar) (start stop : Nat)
  | array (items : List Item) (ofTables : Bool)
  | table (fields : List (String × Item)) (origin : TableOrigin)
  deriving Inhabited

structure Key where
  name : String
  start : Nat
  stop : Nat
  deriving Inhabited

abbrev Fields := List (String × Item)

def Fields.lookup (fs : Fields) (name : String) : Option Item :=
  (fs.find? (·.1 == name)).map (·.2)

/-- Replace a field, or add it at the end. -/
def Fields.put (fs : Fields) (name : String) (item : Item) : Fields :=
  if fs.any (·.1 == name) then fs.map fun (k, v) => if k == name then (k, item) else (k, v)
  else fs ++ [(name, item)]

def Fields.remove (fs : Fields) (name : String) : Fields := fs.filter (·.1 != name)

/-- How a node is named when it cannot be extended. -/
def Item.typeName : Item → String
  | .scalar (.str _) _ _ => "string"
  | .scalar (.bool _) _ _ => "boolean"
  | .scalar (.integer _ _) _ _ => "integer"
  | .scalar (.float _) _ _ => "float"
  | .scalar (.datetime _) _ _ => "datetime"
  | .array _ _ => "array"
  | .table _ origin => if origin.inline then "inline table" else "table"

def duplicateKey {α : Type} (key : Key) : Except ReadError α := failAt "duplicate key" key.start key.stop

/-- Go down a key path from a table and apply `k` to the table reached, giving
back the changed tables. Missing tables are created as implicit ones, dotted
when `dotted` holds; an array of tables is passed through its last table. -/
def descend {α : Type} (dotted : Bool) (k : Fields → TableOrigin → Except ReadError (Fields × TableOrigin × α)) :
    Fields → TableOrigin → List Key → Except ReadError (Fields × TableOrigin × α)
  | fields, origin, [] => k fields origin
  | fields, origin, key :: rest =>
    let cannotExtend (what : String) : Except ReadError (Fields × TableOrigin × α) :=
      failAt ("cannot extend value of type " ++ what ++ " with a dotted key") key.start key.stop
    match fields.lookup key.name with
    | none => do
      let (inner, innerOrigin, a) ← descend dotted k [] ⟨true, dotted, false⟩ rest
      pure (fields.put key.name (.table inner innerOrigin), origin, a)
    | some (.array items true) =>
      match items.getLast? with
      | some (.table inner innerOrigin) => do
        let (inner, innerOrigin, a) ← descend dotted k inner innerOrigin rest
        pure (fields.put key.name (.array (items.dropLast ++ [.table inner innerOrigin]) true), origin, a)
      | some other => cannotExtend other.typeName
      | none => cannotExtend "array"
    | some (.table inner innerOrigin) =>
      if innerOrigin.inline then cannotExtend "inline table"
      else if dotted && !innerOrigin.implicit then duplicateKey key
      else do
        let (inner, innerOrigin, a) ← descend dotted k inner innerOrigin rest
        pure (fields.put key.name (.table inner innerOrigin), origin, a)
    | some other => cannotExtend other.typeName

/-- Add a pair to a table: the leading parts of its key lead through dotted
tables to the table that takes the last part. -/
def addPair (fields : Fields) (origin : TableOrigin) (path : List Key) (key : Key) (item : Item) :
    Except ReadError (Fields × TableOrigin) := do
  let (fields, origin, _) ← descend true (fun fs o =>
    if o.dotted == path.isEmpty then duplicateKey key
    else match fs.lookup key.name with
      | some _ => duplicateKey key
      | none => .ok (fs ++ [(key.name, item)], o, ())) fields origin path
  pure (fields, origin)

/-- Decode a key. A key leads through at most `nestingLimit` tables: one with
more parts is refused once its parts are decoded, as a whole. -/
def decodeKeys (parts : List KeyPart) : Except ReadError (List Key) := do
  let keys ← parts.mapM fun p => do
    let name ← decodeKey p
    pure (⟨name, p.start, p.stop⟩ : Key)
  if nestingLimit < keys.length then .error ⟨"recursion limit", 0, 0, false⟩
  else pure keys

def splitKey (keys : List Key) : List Key × Key :=
  (keys.dropLast, keys.getLast?.getD default)

mutual

def decodeValue : RawValue → Except ReadError Item
  | .scalar kind text start stop => do
    let s ← decodeScalar kind text start stop
    pure (.scalar s start stop)
  | .array items => do
    let decoded ← decodeItems items
    pure (.array decoded false)
  | .inline pairs => do
    let (fields, origin) ← decodePairs pairs [] ⟨false, false, true⟩
    pure (.table fields origin)

def decodeItems : List RawValue → Except ReadError (List Item)
  | [] => .ok []
  | v :: rest => do
    let item ← decodeValue v
    let items ← decodeItems rest
    pure (item :: items)

def decodePairs : List (List KeyPart × RawValue) → Fields → TableOrigin → Except ReadError (Fields × TableOrigin)
  | [], fields, origin => .ok (fields, origin)
  | (parts, v) :: rest, fields, origin => do
    let keys ← decodeKeys parts
    let item ← decodeValue v
    let (path, key) := splitKey keys
    let (fields, origin) ← addPair fields origin path key item
    decodePairs rest fields origin

end

/-- The document being assembled: its top level, the table being filled with
its origin, and the header that opened it. -/
structure Assembly where
  root : Fields
  current : Fields
  origin : TableOrigin
  header : Option (Bool × List Key)

def Assembly.finishTable (st : Assembly) : Except ReadError Assembly :=
  let cleared : Assembly := { st with current := [], origin := .defined, header := none }
  match st.header with
  | none => .ok { cleared with root := st.current }
  | some (isArray, keys) =>
    match keys.getLast? with
    | none => .ok cleared
    | some key => do
      let filed : Item := .table st.current st.origin
      let (root, _, _) ← descend false (fun fs o =>
        if isArray then
          match fs.lookup key.name with
          | none => .ok (fs ++ [(key.name, .array [filed] true)], o, ())
          | some (.array items true) => .ok (fs.put key.name (.array (items ++ [filed]) true), o, ())
          | some _ => duplicateKey key
        else .ok (fs.put key.name filed, o, ())) st.root .defined keys.dropLast
      pure { cleared with root := root }

/-- Open the table of a header. A `[header]` takes over a table that exists
only implicitly, with what has been put in it so far. -/
def Assembly.startTable (st : Assembly) (isArray : Bool) (keys : List Key) : Except ReadError Assembly := do
  let st ← if isArray then pure st else
    match keys.getLast? with
    | none => pure st
    | some key => do
      let (root, _, taken) ← descend false (fun fs o =>
        match fs.lookup key.name with
        | none => .ok (fs, o, [])
        | some (.table inner inOrigin) =>
          if inOrigin.implicit && !inOrigin.dotted then .ok (fs.remove key.name, o, inner)
          else duplicateKey key
        | some _ => duplicateKey key) st.root .defined keys.dropLast
      pure { st with root := root, current := taken }
  pure { st with origin := .defined, header := some (isArray, keys) }

def Assembly.step (st : Assembly) : Expression → Except ReadError Assembly
  | .header isArray parts => do
    let st ← st.finishTable
    let keys ← decodeKeys parts
    st.startTable isArray keys
  | .pair parts v => do
    let keys ← decodeKeys parts
    let item ← decodeValue v
    let (path, key) := splitKey keys
    let (current, origin) ← addPair st.current st.origin path key item
    pure { st with current := current, origin := origin }

def assemble (expressions : List Expression) : Except ReadError Fields := do
  let st ← expressions.foldlM Assembly.step ⟨[], [], .defined, none⟩
  let st ← st.finishTable
  pure st.root

end Toml

end LayeredConfig
