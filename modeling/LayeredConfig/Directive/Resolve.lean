import LayeredConfig.Directive.Basic
import LayeredConfig.Directive.Coerce
import LayeredConfig.Tree.Walk
import LayeredConfig.Tree.Reference
import LayeredConfig.Json.Write
import LayeredConfig.Obfuscator

/-! Resolving directives. A tree is resolved in two passes. The first walks its
string leaves in order; a leaf that is not a directive stays, a `CONFIG:` leaf
is noted for later, and any other directive is applied, which replaces the leaf
by the result or removes it when the result is absent. The second pass copies
the noted references, in the order they were met, from the tree as it stands
(earlier copies included) into their leaves, or removes a leaf whose reference
names nothing.

Applying a directive may produce a text that is itself a directive (a variable,
a file, a payload); that is applied one level deeper, and a `CONFIG:` there is
an error, since only a leaf of the tree has a place to copy into. Going deeper
than the limit is an error too. The operators:

* `RAW` gives the payload as it is;
* `HEXSTR` and `B64STR` decode the payload to UTF-8 text; base64 may lack its
  padding, leave bits over, use `-` and `_` for `+` and `/`, and contain ASCII
  blanks, which are dropped;
* `ENV` reads `NAME` or `NAME:default`; an unset or empty variable gives the
  default, or the empty text;
* `FILE` reads a file;
* `SFILE<n>` reads a secret file, first creating it from `n` random bytes
  written in hex when it does not exist; if another writer creates it first,
  that one is read;
* `BOOL` and `INT`, `INT16`, `INT8` coerce the resolved payload; an integer
  that is whole and below `2⁵³` in magnitude is an integer, any other finite
  value a float, NaN means no digits and infinity an overflow;
* `OBF` decodes an obfuscated value, if the gate allows it. -/

namespace LayeredConfig

def maxSecretBytes : Nat := 65536

def defaultMaxDepth : Nat := 32

/-- What resolves directives: the obfuscation gate and the nesting limit. -/
structure Resolver where
  gate : Gate
  maxDepth : Nat
  deriving Inhabited

namespace Resolver

def debugText (r : Resolver) : String :=
  "Dispatcher \x7b host: Host \x7b .. \x7d, gate: " ++ r.gate.debugText ++ ", max_depth: " ++
    toString r.maxDepth ++ " \x7d"

/-- A base64 payload in the standard alphabet, as bytes: ASCII blanks dropped,
`-` and `_` read as `+` and `/`. -/
def standardAlphabet (payload : String) : List UInt8 :=
  Utf8.encode <| String.ofList <| (payload.toList.filter (!Text.isAsciiBlank ·)).map fun c =>
    if c = '-' then '+' else if c = '_' then '/' else c

def utf8Value (bytes : List UInt8) (path : KeyPath) : Except ConfigError (Option Value) :=
  match Utf8.decode bytes with
  | .ok s => .ok (some (.str s))
  | .error e => .error (.invalidUtf8 path e)

/-- The value of a coerced integer; `input` is what was coerced, shown in the
failure. -/
def numberValue (n : Binary64) (path : KeyPath) (input : Option Value) : Except ConfigError Value :=
  if n.isIntegral && n.magnitudeBelowPow2 53 then .ok (.num (.int n.truncate))
  else
    let text := match input with
      | some (.str s) => s
      | some other => other.toCompact
      | none => ""
    if n.isNaN then .error (.notAnInteger path text)
    else if n.isFinite then .ok (.num (.float n))
    else .error (.integerOutOfRange path text)

def boolValue : Coerced Bool → Option Value
  | .absent => none
  | .null => some .null
  | .value b => some (.bool b)

variable {m : Type → Type} [Monad m] [Host m]

/-- The text of `NAME` or `NAME:default`. -/
def lookupEnv (payload : String) : m String := do
  let (name, fallback) := (Text.splitFirst? payload ':').getD (payload, "")
  match ← Host.envVar name with
  | some value => return if value.isEmpty then fallback else value
  | none => return fallback

def readFile (path : String) : m (Except ConfigError String) := do
  match ← Host.readText path with
  | .ok s => return .ok s
  | .error e => return .error (.fileRead path e)

/-- Read a secret file, creating it first when it does not exist. -/
def secretFile (path : String) (bytes : Nat) : m (Except ConfigError String) := do
  if ← Host.pathExists path then readFile path
  else
    let secret := Hex.encode (← Host.randomBytes bytes)
    match ← Host.createNew path (Utf8.encode secret) with
    | .ok () => return .ok secret
    | .error e =>
      if e.kind = .alreadyExists then readFile path else return .error (.fileWrite path e)

/-- Apply a directive at a depth; `fuel` bounds the depth still allowed. -/
def apply (r : Resolver) : Nat → KeyPath → Directive → Nat → m (Except ConfigError (Option Value))
  | fuel, path, d, depth => do
    if r.maxDepth < depth then return .error (.recursionLimit path r.maxDepth)
    match fuel with
    | 0 => return .error (.recursionLimit path r.maxDepth)
    | fuel + 1 =>
      let inner (text : String) : m (Except ConfigError (Option Value)) :=
        match Directive.parse text with
        | none => return .ok (some (.str text))
        | some d => apply r fuel path d (depth + 1)
      match d.operator with
      | .raw => return .ok (some (.str d.payload))
      | .hexText =>
        return match Hex.decode (Utf8.encode d.payload) with
          | .ok bytes => utf8Value bytes path
          | .error e => .error (.invalidHex path e)
      | .base64Text =>
        return match Base64.decode .lenient (standardAlphabet d.payload) with
          | .ok bytes => utf8Value bytes path
          | .error e => .error (.invalidBase64 path e)
      | .env => inner (← lookupEnv d.payload)
      | .file =>
        match ← readFile d.payload with
        | .ok contents => inner contents
        | .error e => return .error e
      | .secretFile bytes =>
        if maxSecretBytes < bytes then return .error (.secretTooLarge path bytes maxSecretBytes)
        else return (← secretFile d.payload bytes).map fun s => some (.str s)
      | .bool => return (← inner d.payload).map fun v => boolValue (Coerce.toBool v)
      | .int radix =>
        return (← inner d.payload).bind fun v =>
          match Coerce.toInt v radix with
          | .absent => .ok none
          | .null => .ok (some .null)
          | .value n => (numberValue n path v).map some
      | .config => return .error (.configInRecursedOperator path)
      | .obfuscated => return (r.gate.decode d.payload path).map fun s => some (.str s)

/-- Resolve a text met inside another directive: plain text stays, a directive
is applied at the given depth. -/
def resolveText (r : Resolver) (path : KeyPath) (text : String) (depth : Nat) :
    m (Except ConfigError (Option Value)) :=
  match Directive.parse text with
  | none => return .ok (some (.str text))
  | some d => apply r (r.maxDepth + 1) path d depth

/-- A reference noted in the first pass: the leaf to fill and the dotted
reference to fill it from. -/
structure Deferred where
  target : KeyPath
  source : String

/-- The first pass's answer for a leaf of the tree, noting `CONFIG:` leaves. -/
def visitLeaf (r : Resolver) (path : KeyPath) (leaf : String) :
    StateT (List Deferred) m (Except ConfigError Visit) := do
  match Directive.parse leaf with
  | none => return .ok .keep
  | some d =>
    if d.operator = .config then
      modify fun noted => noted ++ [⟨path, d.payload⟩]
      return .ok .keep
    else
      let result ← (apply r (r.maxDepth + 1) path d 0 : m _)
      return result.map fun | some v => .replace v | none => .remove

end Resolver

/-- Copy noted references into their leaves, in order. -/
def Value.fillDeferred (tree : Value) (noted : List Resolver.Deferred) : Value :=
  noted.foldl (fun t ref => (t.assign ref.target (t.lookup ref.source)).2) tree

namespace Resolver

variable {m : Type → Type} [Monad m] [Host m]

/-- Resolve every directive of a tree: the resolved tree, or the failure and the
tree as it was when the failure stopped the first pass. -/
def resolveTree (r : Resolver) (tree : Value) : m (Value × Option ConfigError) := do
  let ((walked, failure), noted) ← (Value.walk (visitLeaf r) tree).run []
  match failure with
  | some e => return (walked, some e)
  | none => return (walked.fillDeferred noted, none)

end Resolver

end LayeredConfig
