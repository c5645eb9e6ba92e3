import LayeredConfig.Tree.Basic
import LayeredConfig.Text.Quoted
import LayeredConfig.Number.Shortest

/-! The settings of the resolver, read from the `configProcessor` section: the
obfuscator's default algorithm, key and salt (texts) and the deepest nesting of
directives (an unsigned 64-bit integer). Every setting has a default and other
keys are ignored. A section may also give the settings positionally, as an
array in the order of the fields, with missing trailing ones taking their
defaults and extra ones refused.

A value of the wrong kind is refused with a text that names what was found and
what was expected, such as ``invalid type: string "lots", expected usize``. -/

namespace LayeredConfig

structure ObfuscatorConfig where
  defaultAlg : String
  key : String
  salt : String
  deriving DecidableEq, Inhabited

def ObfuscatorConfig.standard : ObfuscatorConfig :=
  ⟨"c20p1305", "confproc:default-obfuscation-key", ""⟩

structure Settings where
  obfuscator : ObfuscatorConfig
  maxDirectiveDepth : Nat
  deriving DecidableEq, Inhabited

def defaultMaxDirectiveDepth : Nat := 32

def Settings.standard : Settings := ⟨ObfuscatorConfig.standard, defaultMaxDirectiveDepth⟩

/-- What was found where something else was expected. -/
inductive Unexpected where
  | bool (b : Bool)
  | unsigned (n : Nat)
  | signed (i : Int)
  | float (x : Binary64)
  | str (s : String)
  | null
  | seq
  | map
  deriving Inhabited

def Unexpected.describe : Unexpected → String
  | .bool b => "boolean `" ++ (if b then "true" else "false") ++ "`"
  | .unsigned n => "integer `" ++ toString n ++ "`"
  | .signed i => "integer `" ++ toString i ++ "`"
  | .float x => "floating point `" ++ x.toExponentText ++ "`"
  | .str s => "string " ++ Text.quote s
  | .null => "null"
  | .seq => "sequence"
  | .map => "map"

/-- Why a section is not settings. -/
inductive SettingsError where
  | invalidType (found : Unexpected) (expected : String)
  | invalidValue (found : Unexpected) (expected : String)
  | invalidLength (length : Nat) (expected : String)
  deriving Inhabited

def SettingsError.message : SettingsError → String
  | .invalidType u e => "invalid type: " ++ u.describe ++ ", expected " ++ e
  | .invalidValue u e => "invalid value: " ++ u.describe ++ ", expected " ++ e
  | .invalidLength n e => "invalid length " ++ toString n ++ ", expected " ++ e

namespace Settings

def unexpected : Value → Unexpected
  | .null => .null
  | .bool b => .bool b
  | .num (.int i) => if 0 ≤ i then .unsigned i.toNat else .signed i
  | .num (.float x) => .float x
  | .str s => .str s
  | .arr _ => .seq
  | .obj _ => .map

def readText (v : Value) : Except SettingsError String :=
  match v with
  | .str s => .ok s
  | other => .error (.invalidType (unexpected other) "a string")

def readWord (v : Value) : Except SettingsError Nat :=
  match v with
  | .num (.int i) =>
    if 0 ≤ i then .ok i.toNat else .error (.invalidValue (.signed i) "usize")
  | other => .error (.invalidType (unexpected other) "usize")

/-- Read the fields of a record in the order they come, starting from defaults;
`field` updates the record for a known key and ignores others. -/
def readFields {α : Type} (field : α → String → Value → Except SettingsError α) (init : α) :
    List (String × Value) → Except SettingsError α
  | [] => .ok init
  | (k, v) :: rest => do readFields field (← field init k v) rest

/-- Read positional fields in order, then fail when more items than fields are
given: a bad item is reported before a bad length. -/
def readItems {α : Type} (steps : List (α → Value → Except SettingsError α)) (init : α)
    (items : List Value) : Except SettingsError α := do
  let record ← (steps.zip items).foldlM (fun acc (step, v) => step acc v) init
  if steps.length < items.length then .error (.invalidLength items.length "fewer elements in array")
  else .ok record

def readObfuscator (v : Value) : Except SettingsError ObfuscatorConfig :=
  let setAlg := fun (c : ObfuscatorConfig) (v : Value) => do return { c with defaultAlg := ← readText v }
  let setKey := fun (c : ObfuscatorConfig) (v : Value) => do return { c with key := ← readText v }
  let setSalt := fun (c : ObfuscatorConfig) (v : Value) => do return { c with salt := ← readText v }
  match v with
  | .obj fields =>
    readFields (fun c k v =>
      if k = "defaultAlg" then setAlg c v
      else if k = "key" then setKey c v
      else if k = "salt" then setSalt c v
      else .ok c) ObfuscatorConfig.standard fields
  | .arr items => readItems [setAlg, setKey, setSalt] ObfuscatorConfig.standard items
  | other => .error (.invalidType (unexpected other) "struct ObfuscatorConfig")

def read (v : Value) : Except SettingsError Settings :=
  let setObf := fun (s : Settings) (v : Value) => do return { s with obfuscator := ← readObfuscator v }
  let setDepth := fun (s : Settings) (v : Value) => do return { s with maxDirectiveDepth := ← readWord v }
  match v with
  | .obj fields =>
    readFields (fun s k v =>
      if k = "obfuscator" then setObf s v
      else if k = "maxDirectiveDepth" then setDepth s v
      else .ok s) Settings.standard fields
  | .arr items => readItems [setObf, setDepth] Settings.standard items
  | other => .error (.invalidType (unexpected other) "struct ProcessorSettings")

end Settings

end LayeredConfig
