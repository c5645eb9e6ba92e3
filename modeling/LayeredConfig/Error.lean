import LayeredConfig.Tree.Path
import LayeredConfig.Host.Basic
import LayeredConfig.Text.Hex
import LayeredConfig.Text.Base64
import LayeredConfig.Text.Utf8
import LayeredConfig.Settings
import LayeredConfig.Json.Read

/-! The failures of the library. Each has a name, a one-line message that names
the place it happened (a key path rendered as a compact JSON array, or a file
path), and for some a cause: the failure underneath, such as the operating
system's or a decoder's, with its own text. -/

namespace LayeredConfig

/-- A failure of the library. -/
inductive ConfigError where
  /-- A tag that names no operator. -/
  | unknownOperator (tag : String) (path : KeyPath)
  /-- A `CONFIG:` directive reached through another directive. -/
  | configInRecursedOperator (path : KeyPath)
  /-- An `OBF:` directive while the obfuscator's own settings are resolved. -/
  | obfuscatorUnavailable (path : KeyPath)
  /-- Directives nested deeper than the limit. -/
  | recursionLimit (path : KeyPath) (limit : Nat)
  /-- An integer directive whose input has no digits. -/
  | notAnInteger (path : KeyPath) (input : String)
  /-- An integer directive whose digits overflow. -/
  | integerOutOfRange (path : KeyPath) (input : String)
  /-- A secret longer than the limit. -/
  | secretTooLarge (path : KeyPath) (bytes limit : Nat)
  /-- A settings section of the wrong shape. -/
  | invalidSettings (source : SettingsError)
  | fileRead (path : String) (source : IoError)
  | fileWrite (path : String) (source : IoError)
  | invalidHex (path : KeyPath) (source : Hex.DecodeError)
  | invalidBase64 (path : KeyPath) (source : Base64.DecodeError)
  | invalidUtf8 (path : KeyPath) (source : Utf8.DecodeError)
  | unknownAlgorithm (alg : String)
  | malformedObfuscated (reason : String)
  | obfuscatedIntegrity
  /-- A text too long to encrypt. -/
  | obfuscationFailed
  | layerReadError (path : String) (source : IoError)
  /-- A layer that is not TOML, with the text of the reader's failure. -/
  | layerParseToml (path : String) (source : String)
  | layerParseJson (path : String) (source : Json.ReadError)
  | unsupportedLayerFormat (path : String)
  deriving Inhabited

namespace ConfigError

def name : ConfigError → String
  | .unknownOperator .. => "UnknownOperator"
  | .configInRecursedOperator .. => "ConfigInRecursedOperator"
  | .obfuscatorUnavailable .. => "ObfuscatorUnavailable"
  | .recursionLimit .. => "RecursionLimit"
  | .notAnInteger .. => "NotAnInteger"
  | .integerOutOfRange .. => "IntegerOutOfRange"
  | .secretTooLarge .. => "SecretTooLarge"
  | .invalidSettings .. => "InvalidSettings"
  | .fileRead .. => "FileRead"
  | .fileWrite .. => "FileWrite"
  | .invalidHex .. => "InvalidHex"
  | .invalidBase64 .. => "InvalidBase64"
  | .invalidUtf8 .. => "InvalidUtf8"
  | .unknownAlgorithm .. => "UnknownAlgorithm"
  | .malformedObfuscated .. => "MalformedObfuscated"
  | .obfuscatedIntegrity => "ObfuscatedIntegrity"
  | .obfuscationFailed => "ObfuscationFailed"
  | .layerReadError .. => "LayerReadError"
  | .layerParseToml .. => "LayerParseToml"
  | .layerParseJson .. => "LayerParseJson"
  | .unsupportedLayerFormat .. => "UnsupportedLayerFormat"

def message : ConfigError → String
  | .unknownOperator _ p => "Unknown op processing config for: " ++ p.render
  | .configInRecursedOperator p => "Cannot use CONFIG in recursed operator: " ++ p.render
  | .obfuscatorUnavailable p => "Obfuscator not allowed at this time: " ++ p.render
  | .recursionLimit p n =>
    "Directive nesting exceeds " ++ toString n ++ " levels at: " ++ p.render
  | .notAnInteger p s => "Value is not an integer at " ++ p.render ++ ": " ++ Text.quote s
  | .integerOutOfRange p s => "Integer out of range at " ++ p.render ++ ": " ++ Text.quote s
  | .secretTooLarge p n limit =>
    "Secret of " ++ toString n ++ " bytes exceeds the " ++ toString limit ++ "-byte limit at: " ++
      p.render
  | .invalidSettings _ => "Invalid configProcessor settings"
  | .fileRead p _ => "Failed to read file: " ++ p
  | .fileWrite p _ => "Failed to write file: " ++ p
  | .invalidHex p _ => "Invalid hex payload at: " ++ p.render
  | .invalidBase64 p _ => "Invalid base64 payload at: " ++ p.render
  | .invalidUtf8 p _ => "Decoded payload is not valid UTF-8 at: " ++ p.render
  | .unknownAlgorithm alg => "Unknown obfuscation algorithm: " ++ alg
  | .malformedObfuscated reason => "Malformed obfuscated value: " ++ reason
  | .obfuscatedIntegrity => "Obfuscated value failed integrity check (wrong key or salt?)"
  | .obfuscationFailed => "Failed to obfuscate value"
  | .layerReadError p _ => "Failed to read layer file: " ++ p
  | .layerParseToml p _ => "Failed to parse TOML layer file: " ++ p
  | .layerParseJson p _ => "Failed to parse JSON layer file: " ++ p
  | .unsupportedLayerFormat p => "Unsupported layer file format (expected .toml or .json): " ++ p

/-- The text of the failure underneath, if there is one. -/
def cause? : ConfigError → Option String
  | .invalidSettings e => some e.message
  | .fileRead _ e | .fileWrite _ e | .layerReadError _ e => some e.text
  | .invalidHex _ e => some e.message
  | .invalidBase64 _ e => some e.message
  | .invalidUtf8 _ e => some e.message
  | .layerParseToml _ text => some text
  | .layerParseJson _ e => some e.message
  | _ => none

end ConfigError

end LayeredConfig
