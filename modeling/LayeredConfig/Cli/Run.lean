import LayeredConfig.Cli.Args
import LayeredConfig.Session
import LayeredConfig.Layers
import LayeredConfig.Toml.Write
import LayeredConfig.Json.Write
import LayeredConfig.Text.Blank

/-! Running the program: what each command prints and its exit status.

`resolve` and `obfuscate` start a session from the discovered layers (unless
`--no-discover`) followed by the `--layer` files; `resolve` prints the resolved
tree as pretty JSON or as TOML, and `obfuscate` prints `OBF:` and the obfuscated
value. `layers` lists the discovered layers in merge order with the number of
their top-level keys, and where the user's layer is and whether it exists.

A failure prints `error:`, what was being done, and under `Caused by:` the
failure and what caused it, one per line; when there are two they are numbered
from 0, and the continuation lines of each are indented to line up with the
text. The exit status is then 1. -/

namespace LayeredConfig

namespace Cli

/-- What a run prints and its exit status. -/
structure Outcome where
  status : Nat
  stdout : String
  stderr : String
  deriving Inhabited

/-- A failure: what was being done and the failure, or the text of a failure
with no cause of its own. -/
inductive Failure where
  | wrapped (context : String) (e : ConfigError)
  | plain (context : String) (cause : String)
  deriving Inhabited

/-- One cause under `Caused by:`, numbered or not; its later lines are indented
to line up with its first. -/
def causeLine (number : Option Nat) (text : String) : String :=
  let (lead, indent) := match number with
    | some n => (spaces (5 - min 5 (toString n).length) ++ toString n ++ ": ", spaces 7)
    | none => (spaces 4, spaces 4)
  lead ++ ("\n" ++ indent).intercalate (text.splitOn "\n")

def Failure.text : Failure → String
  | .wrapped context e =>
    context ++ "\n\nCaused by:\n" ++
      match e.cause? with
      | some c => causeLine (some 0) e.message ++ "\n" ++ causeLine (some 1) c
      | none => causeLine none e.message
  | .plain context cause => context ++ "\n\nCaused by:\n" ++ causeLine none cause

def Failure.outcome (f : Failure) : Outcome := ⟨1, "", "error: " ++ f.text ++ "\n"⟩

def trimEnd (s : String) : String := String.ofList (s.toList.reverse.dropWhile Text.isBlank).reverse

/-- The number of top-level keys of a layer; zero when it is not an object. -/
def keyCount : Value → Nat
  | .obj fields => fields.length
  | _ => 0

variable {m : Type → Type} [Monad m] [Host m]

def discovered (cwd home : String) : m (Except Failure (List LoadedLayer)) := do
  match ← discoverLayers cwd home with
  | .ok found => return .ok (mergeOrder found)
  | .error e => return .error (.wrapped "Failed to discover layer files" e)

def loadLayers : List String → m (Except Failure (List Value))
  | [] => return .ok []
  | file :: rest => do
    match ← parseLayerFile file with
    | .error e => return .error (.wrapped ("Failed to load layer " ++ file) e)
    | .ok layer => return (← loadLayers rest).map (layer.value :: ·)

def startSession (files : List String) (discover : Bool) (cwd home : String) :
    m (Except Failure Session) := do
  let found ← if discover then discovered cwd home else pure (.ok [])
  match found with
  | .error f => return .error f
  | .ok found =>
    match ← loadLayers files with
    | .error f => return .error f
    | .ok extra =>
      match ← Session.start (found.map (some ·.value) ++ extra.map some) with
      | .ok s => return .ok s
      | .error e => return .error (.wrapped "Failed to initialize config processor" e)

def layersListing (ordered : List LoadedLayer) : String :=
  if ordered.isEmpty then "No layer files found.\n"
  else
    "Layer files (in merge order, last wins):\n\n" ++
      String.join (ordered.map fun l =>
        "  " ++ l.path ++ " (" ++ toString (keyCount l.value) ++ " top-level keys)\n") ++ "\n"

def runRequest (req : Request) (cwd home : String) : m Outcome := do
  match req with
  | .resolve files discover toml =>
    match ← startSession files discover cwd home with
    | .error f => return f.outcome
    | .ok s =>
      match ← s.process with
      | .error e => return (Failure.wrapped "Failed to resolve configuration" e).outcome
      | .ok tree =>
        if toml then
          match Toml.render tree with
          | .ok text => return ⟨0, trimEnd text ++ "\n", ""⟩
          | .error cause =>
            return (Failure.plain
              "Failed to render configuration as TOML (null values cannot be represented)" cause).outcome
        else return ⟨0, trimEnd tree.toPretty ++ "\n", ""⟩
  | .obfuscate value alg files discover =>
    match ← startSession files discover cwd home with
    | .error f => return f.outcome
    | .ok s =>
      match ← s.obfuscate value alg with
      | .ok encoded => return ⟨0, "OBF:" ++ encoded ++ "\n", ""⟩
      | .error e => return (Failure.wrapped "Failed to obfuscate value" e).outcome
  | .layers =>
    match ← discovered cwd home with
    | .error f => return f.outcome
    | .ok ordered =>
      let userPath := userLayerPath home
      let present ← Host.pathExists userPath
      return ⟨0, layersListing ordered ++ "User layer path: " ++ userPath ++ "\n" ++
        (if present then "  (exists)\n" else "  (not found)\n"), ""⟩

/-- The home directory: `HOME` when it is set and not empty, otherwise the
home directory of the account running the program. -/
def homeDirectory (accountHome : String) : m String := do
  match ← Host.envVar "HOME" with
  | some h => return if h.isEmpty then accountHome else h
  | none => return accountHome

/-- Run the program with its arguments, in a working directory (absolute), with
the home directory of the running account for when `HOME` names none. -/
def run (args : List String) (cwd accountHome : String) : m Outcome :=
  match parse args with
  | .exit status out err => pure ⟨status, out, err⟩
  | .run req => do runRequest req cwd (← homeDirectory accountHome)

end Cli

end LayeredConfig
