import LayeredConfig.Toml.Read
import LayeredConfig.Json.Read
import LayeredConfig.Directive.Coerce
import LayeredConfig.Host.Path
import LayeredConfig.Error
import LayeredConfig.Tree.Merge

/-! Layer files and their discovery. A layer is a TOML or JSON file, told apart
by the extension of its path. Discovery starts in a directory and walks up
through its parents; in each it takes `.confproc.toml`, or else
`.confproc.json`, if that is a regular file, and stops after a layer whose
`configProcessor.root` is `true`. Then the user's layer, `.confproc.toml` in the
home directory, is added, unless `CONFPROC_NO_USER_CONFIG` is set to a true
value, the file is missing, or it has already been found. Layers are found most
specific first and merged in the opposite order. -/

namespace LayeredConfig

inductive LayerFormat where
  | toml
  | json
  deriving DecidableEq, Inhabited

namespace LayerFormat

def ofPath? (path : String) : Option LayerFormat :=
  match Path.extension? path with
  | some "toml" => some .toml
  | some "json" => some .json
  | _ => none

def name : LayerFormat → String
  | .toml => "toml"
  | .json => "json"

end LayerFormat

structure LoadedLayer where
  path : String
  value : Value
  deriving Inhabited

def layerFileNames : List String := [".confproc.toml", ".confproc.json"]

def userLayerFileName : String := ".confproc.toml"

def userLayerDisableVar : String := "CONFPROC_NO_USER_CONFIG"

def userLayerPath (home : String) : String := Path.join home userLayerFileName

def parseLayerText (content : String) (format : LayerFormat) (path : String) :
    Except ConfigError Value :=
  match format with
  | .toml =>
    match Toml.parse content with
    | .ok v => .ok v
    | .error e => .error (.layerParseToml path (e.render content))
  | .json =>
    match Value.ofJson content with
    | .ok v => .ok v
    | .error e => .error (.layerParseJson path e)

/-- Whether a layer ends discovery: its `configProcessor.root` is `true`. -/
def isRootLayer (layer : Value) : Bool :=
  match (layer.field? Value.settingsKey).bind (·.field? "root") with
  | some (.bool b) => b
  | _ => false

variable {m : Type → Type} [Monad m] [Host m]

def parseLayerFile (path : String) : m (Except ConfigError LoadedLayer) := do
  match LayerFormat.ofPath? path with
  | none => return .error (.unsupportedLayerFormat path)
  | some format =>
    match ← Host.readText path with
    | .error e => return .error (.layerReadError path e)
    | .ok content => return (parseLayerText content format path).map fun v => ⟨path, v⟩

def findLayerFile (dir : String) : m (Option String) :=
  layerFileNames.findSomeM? fun name => do
    let path := Path.join dir name
    return if ← Host.isFile path then some path else none

def envTruthy (name : String) : m Bool := do
  match ← Host.envVar name with
  | some value => return (Coerce.toBool (some (.str value))).value?.getD false
  | none => return false

/-- Walk up from a directory collecting layers, most specific first. -/
def discoverFrom : Nat → Option String → List LoadedLayer → m (Except ConfigError (List LoadedLayer))
  | 0, _, acc => return .ok acc
  | _, none, acc => return .ok acc
  | fuel + 1, some dir, acc => do
    match ← findLayerFile dir with
    | none => discoverFrom fuel (Path.parent? dir) acc
    | some path =>
      match ← parseLayerFile path with
      | .error e => return .error e
      | .ok layer =>
        if isRootLayer layer.value then return .ok (acc ++ [layer])
        else discoverFrom fuel (Path.parent? dir) (acc ++ [layer])

/-- The user's layer, unless it is turned off, missing or already found. -/
def loadUserLayer (home : String) (found : List LoadedLayer) :
    m (Except ConfigError (Option LoadedLayer)) := do
  if ← envTruthy userLayerDisableVar then return .ok none
  let path := userLayerPath home
  if !(← Host.isFile path) || found.any (fun l => Path.same l.path path) then return .ok none
  return (← parseLayerFile path).map some

/-- Discover the layers of a directory, most specific first, and the user's
layer last. -/
def discoverLayers (start home : String) : m (Except ConfigError (List LoadedLayer)) := do
  match ← discoverFrom (start.length + 2) (some start) [] with
  | .error e => return .error e
  | .ok found =>
    match ← loadUserLayer home found with
    | .error e => return .error e
    | .ok user => return .ok (found ++ user.toList)

/-- Layers in the order they are merged, least specific first. -/
def mergeOrder (layers : List LoadedLayer) : List LoadedLayer := layers.reverse

end LayeredConfig
