import LayeredConfig.Text.Similarity

/-! The command line: its commands and options, their help texts, and reading
the arguments.

`confproc` takes one of the commands `resolve`, `obfuscate`, `layers` and `help`.
`resolve` and `obfuscate` take `-l, --layer <FILE>` any number of times and
`--no-discover`; `resolve` also takes `--format <FORMAT>` (`json` or `toml`) and
`obfuscate` a value and `--alg <ALG>`. Every command takes `-h, --help`, and the
top level `-V, --version`.

Arguments are read left to right. An option's value is the rest of its
argument after `=` or, for a short option, after the letter, or else the next
argument unless that looks like an option; `--` makes every later argument a
value. Help and the version are printed as soon as they are asked for; a
problem stops the reading with a message that says what was wrong, often with
a close name that would have been right, the usage of the command, and where to
find help.

A value given as the next argument, and the command's own value, are held back
and taken only when the next option or value comes or the arguments end. So an
unknown argument that comes first is what is reported; the held value then
still counts as given in the usage shown, and a second value for a
single-valued option makes it count as not given. The layer options form a
group: once one of them is given, a usage may show the group
`<--layer <FILE>|--no-discover>` in place of its options. Names are close when their Jaro similarity exceeds `0.7`; the closest
is offered, or all close command names.

Before the command only help, the version and `--` are known. An unknown option
there is matched against the top-level options and then against the options of
a command named later on the line. `help` takes the following arguments as they
are, each naming a command of the one before. -/

namespace LayeredConfig

namespace Cli

structure Flag where
  /-- The identifier used in usages and for repeated use. -/
  id : String
  long : String
  short : Option Char
  /-- The name of the value, for options that take one. -/
  valueName : Option String
  help : String
  choices : List String
  defaultValue : Option String
  /-- Whether the option may be given more than once. -/
  repeatable : Bool
  /-- Whether the value names a file, so that an empty one is no value. -/
  pathValued : Bool
  deriving Inhabited

/-- How an option is named in messages: `--layer <FILE>` or `--no-discover`. -/
def Flag.display (f : Flag) : String :=
  "--" ++ f.long ++ match f.valueName with
    | some v => " <" ++ v ++ ">"
    | none => ""

structure CommandSpec where
  name : String
  about : String
  flags : List Flag
  /-- The required value of the command, with its help, if it takes one. -/
  positional : Option (String × String)
  /-- The options that form the group of layer options, by identifier. -/
  grouped : List String
  deriving Inhabited

def layerGroupId : String := "layer-options"

def CommandSpec.groupUsage (c : CommandSpec) : String :=
  "<" ++ "|".intercalate ((c.flags.filter (c.grouped.contains ·.id)).map Flag.display) ++ ">"

def programName : String := "confproc"

def programVersion : String := "0.1.0"

def programAbout : String := "Resolve layered configuration with ENV/FILE/OBF/CONFIG directives"

def layerFlag : Flag :=
  ⟨"layer", "layer", some 'l', some "FILE",
    "Extra layer file (TOML or JSON); later files win over earlier ones and over discovered layers",
    [], none, true, true⟩

def noDiscoverFlag : Flag :=
  ⟨"no_discover", "no-discover", none, none,
    "Do not look for .confproc.toml files from the current directory upwards", [], none, false, false⟩

/-- `--format <FORMAT>`: how `resolve` prints, `json` unless asked otherwise. -/
def formatFlag : Flag :=
  ⟨"format", "format", none, some "FORMAT", "Output format", ["json", "toml"], some "json", false, false⟩

def algFlag : Flag :=
  ⟨"alg", "alg", none, some "ALG", "Algorithm (defaults to configProcessor.obfuscator.defaultAlg)",
    [], none, false, false⟩

def helpId : String := "help"

def helpFlag : Flag :=
  ⟨helpId, "help", some 'h', none, "Print help", [], none, false, false⟩

def resolveSpec : CommandSpec :=
  ⟨"resolve", "Merge layers and print the fully resolved configuration",
    [layerFlag, noDiscoverFlag, formatFlag], none, [layerFlag.id, noDiscoverFlag.id]⟩

def obfuscateSpec : CommandSpec :=
  ⟨"obfuscate", "Obfuscate a value for use behind an OBF: directive",
    [algFlag, layerFlag, noDiscoverFlag], some ("VALUE", "The value to obfuscate"),
    [layerFlag.id, noDiscoverFlag.id]⟩

def layersSpec : CommandSpec :=
  ⟨"layers", "List discovered layer files in merge order", [], none, []⟩

def helpAbout : String := "Print this message or the help of the given subcommand(s)"

def commandList : List (String × String) :=
  [(resolveSpec.name, resolveSpec.about), (obfuscateSpec.name, obfuscateSpec.about),
   (layersSpec.name, layersSpec.about), ("help", helpAbout)]

def findCommand (name : String) : Option CommandSpec :=
  [resolveSpec, obfuscateSpec, layersSpec].find? (·.name = name)

/-! ### Help texts -/

def spaces (n : Nat) : String := String.ofList (List.replicate n ' ')

/-- Rows of a help section: the left column is padded to the widest one plus two. -/
def tableRows (rows : List (String × String)) : String :=
  let width := rows.foldl (fun w r => max w r.1.length) 0
  "\n".intercalate (rows.map fun (left, right) => "  " ++ left ++ spaces (width + 2 - left.length) ++ right)

def Flag.helpRow (f : Flag) : String × String :=
  let short := match f.short with
    | some c => "-" ++ String.singleton c ++ ", "
    | none => "    "
  let extra := (match f.defaultValue with
      | some d => [" [default: " ++ d ++ "]"]
      | none => []) ++
    (if f.choices.isEmpty then [] else [" [possible values: " ++ ", ".intercalate f.choices ++ "]"])
  (short ++ f.display, f.help ++ String.join extra)

def helpRow : String × String := ("-h, --help", "Print help")

def CommandSpec.hasOptions (c : CommandSpec) : Bool := !c.flags.isEmpty

def CommandSpec.usage (c : CommandSpec) : String :=
  programName ++ " " ++ c.name ++ (if c.hasOptions then " [OPTIONS]" else "") ++
    match c.positional with
    | some (v, _) => " <" ++ v ++ ">"
    | none => ""

def CommandSpec.helpText (c : CommandSpec) : String :=
  let args := match c.positional with
    | some (v, h) => "Arguments:\n" ++ tableRows [("<" ++ v ++ ">", h)] ++ "\n\n"
    | none => ""
  c.about ++ "\n\nUsage: " ++ c.usage ++ "\n\n" ++ args ++
    "Options:\n" ++ tableRows (c.flags.map Flag.helpRow ++ [helpRow]) ++ "\n"

def topUsage : String := programName ++ " <COMMAND>"

def topHelp : String :=
  programAbout ++ "\n\nUsage: " ++ topUsage ++ "\n\nCommands:\n" ++ tableRows commandList ++
    "\n\nOptions:\n" ++ tableRows [helpRow, ("-V, --version", "Print version")] ++ "\n"

def helpCommandHelp : String :=
  helpAbout ++ "\n\nUsage: " ++ programName ++ " help [COMMAND]...\n\nArguments:\n" ++
    tableRows [("[COMMAND]...", "Print help for the subcommand(s)")] ++ "\n"

/-! ### Messages -/

def tryHelp : String := "\n\nFor more information, try '--help'.\n"

def usageBlock (usage : String) : String := "\n\nUsage: " ++ usage

def tips (lines : List String) : String :=
  if lines.isEmpty then "" else "\n" ++ String.join (lines.map fun l => "\n  tip: " ++ l)

def unexpectedArgument (arg : String) (tipLines : List String) (usage : String) : String :=
  "error: unexpected argument '" ++ arg ++ "' found" ++ tips tipLines ++ usageBlock usage ++ tryHelp

/-- An option given without its value, with its choices if it has some. -/
def valueRequired (f : Flag) : String :=
  "error: a value is required for '" ++ f.display ++ "' but none was supplied" ++
    (if f.choices.isEmpty then "" else "\n  [possible values: " ++ ", ".intercalate f.choices ++ "]") ++
    tryHelp

/-- A value outside an option's choices, with the closest choice if one is
close; an empty value counts as none. -/
def invalidValue (f : Flag) (value : String) : String :=
  if value.isEmpty then valueRequired f
  else
    "error: invalid value '" ++ value ++ "' for '" ++ f.display ++ "'" ++
      "\n  [possible values: " ++ ", ".intercalate f.choices ++ "]" ++
      (match (Similarity.suggestions value f.choices).getLast? with
        | some s => "\n\n  tip: a similar value exists: '" ++ s ++ "'"
        | none => "") ++
      tryHelp

/-- A single-valued option or a switch given twice. -/
def usedTwice (what : String) (usage : String) : String :=
  "error: the argument '" ++ what ++ "' cannot be used multiple times" ++ usageBlock usage ++ tryHelp

/-- A value attached with `=` to a switch, which takes none. -/
def unexpectedValue (value : String) (f : Flag) (usage : String) : String :=
  "error: unexpected value '" ++ value ++ "' for '" ++ f.display ++ "' found; no more were expected" ++
    usageBlock usage ++ tryHelp

def missingValue (name : String) (usage : String) : String :=
  "error: the following required arguments were not provided:\n  <" ++ name ++ ">" ++
    usageBlock usage ++ tryHelp

/-- An argument where a command name belongs that names none, with the close
names if there are some. -/
def unrecognizedSubcommand (name : String) : String :=
  let close := Similarity.suggestions name (commandList.map (·.1))
  let tipLines := if close.isEmpty then []
    else [(if close.length = 1 then "a similar subcommand exists: " else "some similar subcommands exist: ") ++
        ", ".intercalate (close.map fun s => "'" ++ s ++ "'")]
  "error: unrecognized subcommand '" ++ name ++ "'" ++ tips tipLines ++ usageBlock topUsage ++ tryHelp

/-! ### Reading arguments -/

/-- What the program is asked to do. -/
inductive Request where
  | resolve (layers : List String) (discover : Bool) (toml : Bool)
  | obfuscate (value : String) (alg : Option String) (layers : List String) (discover : Bool)
  | layers
  deriving Inhabited

/-- The outcome of reading the arguments: a request, or text to print and an
exit status. -/
inductive Parsed where
  | run (r : Request)
  | exit (status : Nat) (stdout stderr : String)
  deriving Inhabited

/-- An argument that takes a value: an option, or the command's own value. -/
inductive Slot where
  | option (f : Flag)
  | positional (name : String)
  deriving Inhabited

/-- What ends the reading early: an exit status and the text for standard
output and standard error. -/
abbrev Refusal := Nat × String × String

/-- What has been read of a command's arguments. -/
structure Matches where
  /-- The arguments given, with their values, in the order they first came; the
  group of layer options is recorded with the first of its options. -/
  entries : List (String × List String) := []
  /-- An argument whose values are held until the next option or the end. -/
  pending : Option (Slot × List String) := none
  /-- Whether the next argument is the value of the pending option. -/
  awaiting : Bool := false
  /-- Whether the command's value has been read. -/
  positionalSeen : Bool := false
  /-- Whether `--` has been read, after which every argument is a value. -/
  trailing : Bool := false
  deriving Inhabited

namespace Matches

def has (m : Matches) (id : String) : Bool := m.entries.any (·.1 == id)

def get (m : Matches) (id : String) : List String := ((m.entries.find? (·.1 == id)).map (·.2)).getD []

def ids (m : Matches) : List String := m.entries.map (·.1)

/-- Record an argument, once, and the group it belongs to with it. -/
def start (c : CommandSpec) (m : Matches) (id : String) : Matches :=
  let record (es : List (String × List String)) (k : String) : List (String × List String) :=
    if es.any (·.1 == k) then es else es ++ [(k, [])]
  let es := record m.entries id
  { m with entries := if c.grouped.contains id then record es layerGroupId else es }

def add (m : Matches) (id : String) (v : String) : Matches :=
  { m with entries := m.entries.map fun (k, vs) => if k == id then (k, vs ++ [v]) else (k, vs) }

def remove (m : Matches) (id : String) : Matches := { m with entries := m.entries.filter (·.1 != id) }

end Matches

/-- The usage shown after an error, from the arguments it names: the full usage
when it names none, otherwise the options named, the group of layer options in
place of its members when it is named, and the command's required value. -/
def smartUsage (c : CommandSpec) (used : List String) : String :=
  if used.isEmpty then c.usage
  else
    let groupUsed := used.contains layerGroupId
    let opts := (used.filterMap fun id =>
      if id == helpId then some helpFlag.display
      else match c.flags.find? (·.id == id) with
        | some f => if groupUsed && c.grouped.contains f.id then none else some f.display
        | none => none).eraseDups
    let groups := if groupUsed then [c.groupUsage] else []
    let pos := match c.positional with
      | some (v, _) => ["<" ++ v ++ ">"]
      | none => []
    " ".intercalate ([programName ++ " " ++ c.name] ++ opts ++ groups ++ pos)

/-- Check a value as the option's parser does: an empty file name is no value,
and a value must be one of the choices when there are some. -/
def checkValue (f : Flag) (v : String) : Option String :=
  if f.pathValued && v.isEmpty then some (valueRequired f)
  else if !f.choices.isEmpty && !f.choices.contains v then some (invalidValue f v)
  else none

/-- Take an argument's values, once nothing else is pending. An option without
a value, a second use of a single-valued option and a bad value are refused,
and a refusal may still leave a trace in what was recorded: a second use
forgets the first, and an option is recorded before its value is checked. -/
def store (c : CommandSpec) (m : Matches) : Slot → List String → Matches × Option String
  | .positional name, vals => (vals.foldl (fun m v => m.add name v) (m.start c name), none)
  | .option f, vals =>
    if vals.isEmpty then (m, some (valueRequired f))
    else if !f.repeatable && m.has f.id then (m.remove f.id, some (usedTwice f.display c.usage))
    else
      let m := m.start c f.id
      match vals.findSome? (checkValue f) with
      | some e => (m, some e)
      | none => (vals.foldl (fun m v => m.add f.id v) m, none)

/-- Take a switch; a second use is refused and forgets the first. -/
def storeSwitch (c : CommandSpec) (m : Matches) (f : Flag) : Matches × Option String :=
  if m.has f.id then (m.remove f.id, some (usedTwice f.display c.usage))
  else (((m.start c f.id).add f.id "true"), none)

def resolvePending (c : CommandSpec) (m : Matches) : Matches × Option String :=
  match m.pending with
  | none => (m, none)
  | some (slot, vals) => store c { m with pending := none } slot vals

def refuse {α : Type} (e : String) : Except Refusal α := .error (2, "", e)

def orRefuse : Matches × Option String → Except Refusal Matches
  | (m, none) => .ok m
  | (_, some e) => refuse e

/-- Resolve the pending argument before another one, stopping on its refusal. -/
def settle (c : CommandSpec) (m : Matches) : Except Refusal Matches := orRefuse (resolvePending c m)

/-- Print the command's help, once the pending argument is accepted. -/
def showHelp {α : Type} (c : CommandSpec) (m : Matches) : Except Refusal α := do
  let _ ← settle c m
  .error (0, c.helpText, "")

def Matches.argIds (m : Matches) : List String := m.ids.filter (· != layerGroupId)

/-- The error for an unknown long option, with a close name if there is one; a
close option counts as given in the usage, where the options given are named
one by one. -/
def unknownLong (c : CommandSpec) (m : Matches) (name : String) : String :=
  let longs := c.flags.map (·.long) ++ [helpFlag.long]
  match (Similarity.suggestions name longs).getLast? with
  | some s =>
    let id := match c.flags.find? (·.long == s) with
      | some f => f.id
      | none => helpId
    unexpectedArgument ("--" ++ name) ["a similar argument exists: '--" ++ s ++ "'"]
      (smartUsage c (m.start c id).argIds)
  | none =>
    let tipLines := if c.positional.isSome && !m.trailing then
        ["to pass '--" ++ name ++ "' as a value, use '-- --" ++ name ++ "'"] else []
    unexpectedArgument ("--" ++ name) tipLines (smartUsage c m.argIds)

/-- A value attached to an option that takes none; the usage names what was
given before, without the required value, and the option. -/
def attachedToSwitch (c : CommandSpec) (m : Matches) (f : Flag) (v : String) : String :=
  let required := match c.positional with
    | some (name, _) => [name]
    | none => []
  unexpectedValue v f (smartUsage c ((m.ids.filter (!required.contains ·)) ++ [f.id]))

def looksLikeFlag (arg : String) : Bool := arg.startsWith "-" && arg != "-"

/-- Read an option given by its long name, with the value attached to it after
`=` if there is one. -/
def readLong (c : CommandSpec) (m : Matches) (name : String) (attached : Option String) :
    Except Refusal Matches :=
  match (c.flags ++ [helpFlag]).find? (·.long == name) with
  | none => refuse (unknownLong c (resolvePending c m).1 name)
  | some f =>
    match f.valueName, attached with
    | some _, some v => do
      let m ← settle c m
      let m ← orRefuse (store c m (.option f) [v])
      pure { m with awaiting := false }
    | some _, none => do
      let m ← settle c m
      pure { m with pending := some (.option f, []), awaiting := true }
    | none, some v => refuse (attachedToSwitch c m f v)
    | none, none =>
      if f.id == helpId then showHelp c m
      else do
        let m ← settle c m
        let m ← orRefuse (storeSwitch c m f)
        pure { m with awaiting := false }

/-- Read a cluster of short options, after the dash: switches one by one, until
an option that takes the rest of the cluster, after an optional `=`, as its
value, or takes the next argument when nothing is left. -/
def readShorts (c : CommandSpec) (m : Matches) : List Char → Except Refusal Matches
  | [] => .ok m
  | ch :: rest =>
    match (c.flags ++ [helpFlag]).find? (·.short == some ch) with
    | none =>
      let arg := "-" ++ String.singleton ch
      let tipLines := if c.positional.isSome && !m.trailing then
          ["to pass '" ++ arg ++ "' as a value, use '-- " ++ arg ++ "'"] else []
      refuse (unexpectedArgument arg tipLines c.usage)
    | some f =>
      if f.id == helpId then showHelp c m
      else match f.valueName with
        | none => do
          let m ← settle c m
          let m ← orRefuse (storeSwitch c m f)
          readShorts c { m with awaiting := false } rest
        | some _ =>
          if rest.isEmpty then do
            let m ← settle c m
            pure { m with pending := some (.option f, []), awaiting := true }
          else do
            let v := match rest with
              | '=' :: more => more
              | _ => rest
            let m ← settle c m
            let m ← orRefuse (store c m (.option f) [String.ofList v])
            pure { m with awaiting := false }

/-- Read an argument that is a value: the command's value if it takes one not
yet given, else an unexpected argument. -/
def readPositional (c : CommandSpec) (m : Matches) (arg : String) : Except Refusal Matches :=
  match c.positional with
  | some (name, _) =>
    if m.positionalSeen then refuse (unexpectedArgument arg [] c.usage)
    else do
      let m ← settle c m
      pure { m with pending := some (.positional name, [arg]), positionalSeen := true, awaiting := false }
  | none => refuse (unexpectedArgument arg [] c.usage)

def readArg (c : CommandSpec) (m : Matches) (arg : String) : Except Refusal Matches :=
  if m.trailing then readPositional c m arg
  else if arg = "--" then .ok { m with trailing := true }
  else if arg.startsWith "--" then
    let body := String.ofList (arg.toList.drop 2)
    match body.splitOn "=" with
    | name :: value :: more => readLong c m name (some ("=".intercalate (value :: more)))
    | _ => readLong c m body none
  else if looksLikeFlag arg then readShorts c m (arg.toList.drop 1)
  else if m.awaiting then
    .ok { m with pending := m.pending.map (fun (s, vs) => (s, vs ++ [arg])), awaiting := false }
  else readPositional c m arg

/-- Read all arguments of a command, resolve the last pending one, then check
that the command's value was given. -/
def readArgs (c : CommandSpec) : List String → Matches → Except Refusal Matches
  | [], m => do
    let m ← settle c m
    match c.positional with
    | some (v, _) =>
      if m.has v then pure m
      else refuse (missingValue v (smartUsage c (m.argIds ++ [v])))
    | none => pure m
  | arg :: rest, m => do readArgs c rest (← readArg c m arg)

def requestOf (c : CommandSpec) (m : Matches) : Request :=
  let discover := !m.has noDiscoverFlag.id
  let layers := m.get layerFlag.id
  if c.name = obfuscateSpec.name then
    let value := match c.positional with
      | some (name, _) => (m.get name).head?.getD ""
      | none => ""
    .obfuscate value (m.get algFlag.id).head? layers discover
  else if c.name = resolveSpec.name then .resolve layers discover (m.get formatFlag.id == ["toml"])
  else .layers

def commands : List CommandSpec := [resolveSpec, obfuscateSpec, layersSpec]

/-- The usage of the top level after an error, with the options given. -/
def topSmartUsage (used : List String) : String :=
  " ".intercalate (programName :: used ++ ["<COMMAND>"])

/-- The error for a command name written after `--`. -/
def commandAfterDash (name : String) : String :=
  unexpectedArgument name ["subcommand '" ++ name ++ "' exists; to use it, remove the '--' before it"] topUsage

/-- For an unknown top-level option: a command named later among the arguments
that has a close option, the earliest such command, with that option. -/
def laterCommandFlag (name : String) (rest : List String) : Option String :=
  let found := commands.filterMap fun c =>
    match (Similarity.suggestions name (c.flags.map (·.long) ++ ["help"])).getLast?, rest.idxOf? c.name with
    | some s, some at_ => some (at_, c.name ++ " --" ++ s)
    | _, _ => none
  let earliest := found.foldl (fun best x => match best with
      | some b => if x.1 < b.1 then some x else some b
      | none => some x) none
  earliest.map (·.2)

/-- The error for an unknown top-level option: a close top-level option, or
else the option of a later command that is close to it. -/
def unknownTopLong (name : String) (rest : List String) : String :=
  match (Similarity.suggestions name ["help", "version"]).getLast? with
  | some s => unexpectedArgument ("--" ++ name) ["a similar argument exists: '--" ++ s ++ "'"] (topSmartUsage ["--" ++ s])
  | none =>
    match laterCommandFlag name rest with
    | some tip => unexpectedArgument ("--" ++ name) ["'" ++ tip ++ "' exists"] topUsage
    | none => unexpectedArgument ("--" ++ name) [] topUsage

def versionText : String := programName ++ " " ++ programVersion ++ "\n"

/-- The outcome of the `help` command: the help of the command its arguments
name, each a command of the one before, taken as they are. -/
def helpCommand (args : List String) : Parsed :=
  match args with
  | [] => .exit 0 topHelp ""
  | name :: rest =>
    if name = "help" then
      match rest with
      | [] => .exit 0 helpCommandHelp ""
      | other :: _ =>
        .exit 2 "" ("error: unrecognized subcommand '" ++ other ++ "'" ++
          usageBlock (programName ++ " help [COMMAND]...") ++ "\n")
    else match findCommand name with
      | some c =>
        match rest with
        | [] => .exit 0 c.helpText ""
        | other :: _ =>
          .exit 2 "" ("error: unrecognized subcommand '" ++ other ++ "'" ++ usageBlock c.usage ++ tryHelp)
      | none => .exit 2 "" ("error: unrecognized subcommand '" ++ name ++ "'" ++ usageBlock topUsage ++ tryHelp)

/-- The outcome of a cluster of top-level short options: help and the version
act at once, any other letter is refused. -/
def readTopShorts : List Char → Parsed
  | [] => .exit 2 "" topHelp
  | ch :: _ =>
    if ch = 'h' then .exit 0 topHelp ""
    else if ch = 'V' then .exit 0 versionText ""
    else .exit 2 "" (unexpectedArgument ("-" ++ String.singleton ch) [] topUsage)

/-- Read the arguments before the command; `trailing` is set after `--`, when
every argument is taken as a value. -/
def readTop (trailing : Bool) : List String → Parsed
  | [] => .exit 2 "" topHelp
  | arg :: rest =>
    if trailing then
      if arg = "help" || (findCommand arg).isSome then .exit 2 "" (commandAfterDash arg)
      else .exit 2 "" (unrecognizedSubcommand arg)
    else if arg = "help" then helpCommand rest
    else match findCommand arg with
      | some c =>
        match readArgs c rest {} with
        | .ok m => .run (requestOf c m)
        | .error (status, out, err) => .exit status out err
      | none =>
        if arg = "--" then readTop true rest
        else if arg.startsWith "--" then
          let body := String.ofList (arg.toList.drop 2)
          match body.splitOn "=" with
          | name :: value :: more =>
            let attached := "=".intercalate (value :: more)
            if name = "help" || name = "version" then
              .exit 2 "" ("error: unexpected value '" ++ attached ++ "' for '--" ++ name ++
                "' found; no more were expected" ++ usageBlock (topSmartUsage ["--" ++ name]) ++ tryHelp)
            else .exit 2 "" (unknownTopLong name rest)
          | _ =>
            if body = "help" then .exit 0 topHelp ""
            else if body = "version" then .exit 0 versionText ""
            else .exit 2 "" (unknownTopLong body rest)
        else if arg.startsWith "-" && arg != "-" then readTopShorts (arg.toList.drop 1)
        else .exit 2 "" (unrecognizedSubcommand arg)

def parse (args : List String) : Parsed := readTop false args

end Cli

end LayeredConfig
