import LayeredConfig.Tree.Basic

/-! Deep merge of trees and of a list of layers. When both sides are objects the
overlay's fields are taken in their order: a key the base already has keeps its
place and gets the merge of the two values, a new key is appended; in every
other case the overlay replaces the base, arrays and `null` included. Layers
are merged in order onto an object holding an empty `configProcessor` object;
absent layers, `null` layers and layers that are not objects are skipped. -/

namespace LayeredConfig

namespace Value

mutual

def merge (base : Value) : Value → Value
  | .obj overlay =>
    match base with
    | .obj fields => .obj (mergeFields fields overlay)
    | _ => .obj overlay
  | .null => .null
  | .bool b => .bool b
  | .num n => .num n
  | .str s => .str s
  | .arr items => .arr items

/-- Merge overlay fields onto base fields, one overlay field at a time. -/
def mergeFields (base : List (String × Value)) : List (String × Value) → List (String × Value)
  | [] => base
  | (key, value) :: rest =>
    let merged :=
      match Fields.get? base key with
      | some old => Fields.set base key (merge old value)
      | none => Fields.set base key value
    mergeFields merged rest

end

/-- The key of the section that holds the settings of the resolver. -/
def settingsKey : String := "configProcessor"

def layerBase : Value := .obj [(settingsKey, .obj [])]

/-- Merge one more layer, if it is present and an object. -/
def mergeLayer (acc : Value) : Option Value → Value
  | some (.obj fields) => merge acc (.obj fields)
  | _ => acc

/-- Merge layers in order, later ones winning. -/
def mergeLayers (layers : List (Option Value)) : Value :=
  layers.foldl mergeLayer layerBase

end Value

end LayeredConfig
