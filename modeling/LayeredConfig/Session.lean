import LayeredConfig.Directive.Resolve
import LayeredConfig.Tree.Merge
import LayeredConfig.Tree.Dump

/-! A processing session. Starting one merges the layers onto a tree with an
empty `configProcessor` section and reads the settings from that section: the
section alone (an object, or an empty one when it is anything else) is
resolved first, under its own key and with obfuscated values refused, so a
setting may use every directive except `OBF` and its `CONFIG:` references see
only the section; then the settings are read from the result. The obfuscator is
built from those settings. Processing resolves a copy of the merged tree, with
obfuscated values allowed and the configured nesting limit, so it can be done
again. -/

namespace LayeredConfig

def Settings.debugText (s : Settings) : String :=
  "ProcessorSettings \x7b obfuscator: " ++ s.obfuscator.debugText ++ ", max_directive_depth: " ++
    toString s.maxDirectiveDepth ++ " \x7d"

/-- A session: the merged tree, the settings and the obfuscator. -/
structure Session where
  data : Value
  settings : Settings
  obfuscator : Obfuscator
  deriving Inhabited

namespace Session

variable {m : Type → Type} [Monad m] [Host m]

/-- Resolve the settings section on its own and read the settings from it. -/
def bootstrapSettings (data : Value) : m (Except ConfigError Settings) := do
  let part := match data.field? Value.settingsKey with
    | some (.obj fields) => Value.obj fields
    | _ => .obj []
  let scope := Value.obj [(Value.settingsKey, part)]
  let (resolved, failure) ← Resolver.resolveTree ⟨.bootstrapping, defaultMaxDepth⟩ scope
  match failure with
  | some e => return .error e
  | none =>
    match Settings.read ((resolved.field? Value.settingsKey).getD .null) with
    | .ok s => return .ok s
    | .error e => return .error (.invalidSettings e)

def start (layers : List (Option Value)) : m (Except ConfigError Session) := do
  let data := Value.mergeLayers layers
  match ← bootstrapSettings data with
  | .ok settings => return .ok ⟨data, settings, Obfuscator.ofConfig settings.obfuscator⟩
  | .error e => return .error e

def resolver (s : Session) : Resolver := ⟨.active s.obfuscator, s.settings.maxDirectiveDepth⟩

def process (s : Session) : m (Except ConfigError Value) := do
  match ← s.resolver.resolveTree s.data with
  | (tree, none) => return .ok tree
  | (_, some e) => return .error e

/-- Obfuscate a text with an algorithm or the configured one; an encryption
takes its nonce from the process's generator, not from the host's random source. -/
def obfuscate (s : Session) (value : String) (alg : Option String) : m (Except ConfigError String) := do
  let nonce ← if alg.getD s.settings.obfuscator.defaultAlg = chachaAlgorithm then Host.threadRandomBytes 12
    else pure []
  return s.obfuscator.encode nonce value alg

def debugText (s : Session) : String :=
  "ConfigProcessor \x7b data: " ++ s.data.dump ++ ", settings: " ++ s.settings.debugText ++
    ", host: Host \x7b .. \x7d, .. \x7d"

end Session

end LayeredConfig
