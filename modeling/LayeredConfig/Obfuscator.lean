import LayeredConfig.Crypto.Aead
import LayeredConfig.Crypto.Pbkdf2
import LayeredConfig.Text.Base64
import LayeredConfig.Text.Utf8
import LayeredConfig.Text.Split
import LayeredConfig.Error

/-! Reversible obfuscation of secrets. An obfuscated value reads
`<algorithm>:<body>`, where the body is standard base64 with canonical padding:

* `b64`: the body is the text itself;
* `c20p1305`: the body is a 12-byte nonce followed by the text encrypted with
  ChaCha20-Poly1305 and its 16-byte tag, under a key derived from the configured
  passphrase and salt (PBKDF2-HMAC-SHA256, 10000 iterations, the salt prefixed
  with `confproc-obfuscator:`).

Decoding checks, in order: the algorithm prefix, the algorithm, the base64 of
the body, for `c20p1305` the body's length and tag, and that the result is
UTF-8. The key is derived at most once per obfuscator, and only when a
`c20p1305` value is first met.

The gate says whether obfuscated values can be read yet: while the obfuscator's
own settings are being resolved they cannot, so a setting can never depend on
the obfuscator it configures. -/

namespace LayeredConfig

def chachaAlgorithm : String := "c20p1305"

def base64Algorithm : String := "b64"

def keyDerivationRounds : Nat := 10000

/-- The key of the cipher for a passphrase and a salt. -/
def ObfuscatorConfig.cipherKey (c : ObfuscatorConfig) : List UInt8 :=
  Pbkdf2.derive32 (Utf8.encode c.key) (Utf8.encode ("confproc-obfuscator:" ++ c.salt))
    keyDerivationRounds

/-- The structure dump of obfuscator settings, with the key and salt hidden. -/
def ObfuscatorConfig.debugText (c : ObfuscatorConfig) : String :=
  "ObfuscatorConfig \x7b default_alg: " ++ Text.quote c.defaultAlg ++
    ", key: \"<redacted>\", salt: \"<redacted>\" \x7d"

/-- An obfuscator: its settings and its key, derived when first needed. -/
structure Obfuscator where
  config : ObfuscatorConfig
  key : Thunk (List UInt8)

namespace Obfuscator

def ofConfig (c : ObfuscatorConfig) : Obfuscator := ⟨c, Thunk.mk fun _ => c.cipherKey⟩

instance : Inhabited Obfuscator := ⟨ofConfig ObfuscatorConfig.standard⟩

def debugText (o : Obfuscator) : String :=
  "Obfuscator \x7b config: " ++ o.config.debugText ++ ", .. \x7d"

def decodeBody (body : String) : Except ConfigError (List UInt8) :=
  match Base64.decode .strict (Utf8.encode body) with
  | .ok bytes => .ok bytes
  | .error e => .error (.malformedObfuscated e.message)

def intoText (bytes : List UInt8) : Except ConfigError String :=
  match Utf8.decode bytes with
  | .ok s => .ok s
  | .error _ => .error (.malformedObfuscated "decoded value is not UTF-8")

def decrypt (o : Obfuscator) (body : String) : Except ConfigError String := do
  let raw ← decodeBody body
  if raw.length < 28 then throw (.malformedObfuscated "body too short")
  match Aead.decrypt o.key.get (raw.take 12) (raw.drop 12) with
  | some plain => intoText plain
  | none => throw .obfuscatedIntegrity

def decode (o : Obfuscator) (value : String) : Except ConfigError String :=
  match Text.splitFirst? value ':' with
  | none => .error (.malformedObfuscated "missing algorithm prefix")
  | some (alg, body) =>
    if alg = chachaAlgorithm then o.decrypt body
    else if alg = base64Algorithm then decodeBody body >>= intoText
    else .error (.unknownAlgorithm alg)

/-- Obfuscate a text with an algorithm, or the configured default one; `nonce`
gives the 12 bytes that make each encryption distinct. -/
def encode (o : Obfuscator) (nonce : List UInt8) (value : String) (alg : Option String) :
    Except ConfigError String :=
  let alg := alg.getD o.config.defaultAlg
  if alg = chachaAlgorithm then
    match Aead.encrypt o.key.get nonce (Utf8.encode value) with
    | some sealed => .ok (alg ++ ":" ++ Base64.encode (nonce ++ sealed))
    | none => .error .obfuscationFailed
  else if alg = base64Algorithm then .ok (alg ++ ":" ++ Base64.encode (Utf8.encode value))
  else .error (.unknownAlgorithm alg)

end Obfuscator

/-- Whether obfuscated values can be read. -/
inductive Gate where
  /-- The obfuscator's own settings are being resolved. -/
  | bootstrapping
  /-- The obfuscator is built. -/
  | active (o : Obfuscator)
  deriving Inhabited

namespace Gate

def decode (g : Gate) (payload : String) (path : KeyPath) : Except ConfigError String :=
  match g with
  | .bootstrapping => .error (.obfuscatorUnavailable path)
  | .active o => o.decode payload

def debugText : Gate → String
  | .bootstrapping => "Bootstrapping"
  | .active _ => "Active"

end Gate

end LayeredConfig
