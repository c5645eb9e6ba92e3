import LayeredConfig.Host.Basic
import LayeredConfig.Host.Path
import LayeredConfig.Text.Utf8

/-! A model of a machine: an environment, a file store and a source of random
bytes, all plain data, and the host operations on it as a state monad.

The environment is either a fixed table, where any name may be looked up, or a
process environment, a list of `NAME=value` entries searched as the C library
does: the empty name and names with NUL are never set, and a name matches an
entry that starts with it followed by `=`, so that `A=b` finds the rest of the
value of `A` after `b=`. Stores come in three kinds:

* an *exact* store compares paths as texts; it may list the directories that
  exist (a file can only be created in one of them, by the text of its parent)
  and paths whose existence is hidden, which makes creating them fail as if
  another writer had just created them;
* a *keyed* store compares paths by their components and has no directories;
* a *disk* holds files and directories under absolute component lists and
  looks paths up from a working directory as the operating system does: each
  name before a separator must be a directory that exists, and `..` steps up
  from the directory reached; it fails with the operating system's errors.

Random bytes repeat a fixed pattern (zeros for the empty pattern), or come from
a generator whose state advances with each request. A machine has two sources:
the one the host is given, which secret files draw on, and the process's own
generator, which nonces draw on. -/

namespace LayeredConfig

inductive Environment where
  | fixed (vars : List (String × String))
  | process (vars : List (String × String))
  deriving Inhabited

namespace Environment

/-- Whether a process environment can be asked for a name: the empty name and
names holding NUL cannot be passed to the C library. -/
def validName (name : String) : Bool :=
  !name.isEmpty && !name.contains (Char.ofNat 0)

/-- What follows a name and `=` at the start of a `NAME=value` entry. -/
def entryValue? (name : String) (entry : List Char) : Option String :=
  let key := name.toList ++ ['=']
  if key.isPrefixOf entry then some (String.ofList (entry.drop key.length)) else none

def get? : Environment → String → Option String
  | .fixed vars, name => (vars.find? (·.1 == name)).map (·.2)
  | .process vars, name =>
    if validName name then vars.findSome? fun (k, v) => entryValue? name (k.toList ++ '=' :: v.toList)
    else none

end Environment

/-- A directory tree on a disk, with a working directory. -/
structure Disk where
  workdir : List String
  files : List (List String × List UInt8)
  dirs : List (List String)
  deriving Inhabited

namespace Disk

/-- The absolute components a path names, read from its text alone: relative
paths start at the working directory, `.` stays and `..` goes one up (the root
is its own parent). The empty path names nothing. This places the files a disk
starts with; the operations below look the path up as the system does. -/
def place (d : Disk) (path : String) : Option (List String) :=
  if path.isEmpty then none
  else
    let start := if Path.isAbsolute path then [] else d.workdir
    some <| (Path.components path).foldl (fun acc part =>
      match part with
      | .name n => acc ++ [n]
      | .parent => acc.dropLast
      | _ => acc) start

def isDir (d : Disk) (p : List String) : Bool := d.dirs.contains p

def fileAt? (d : Disk) (p : List String) : Option (List UInt8) :=
  (d.files.find? (·.1 == p)).map (·.2)

/-- Where a path leads: the directory reached through all but its last name,
that name unless the path ends in `.` or `..` or is the root, and whether a
separator follows it. -/
structure Target where
  dir : List String
  last : Option String
  trailing : Bool

/-- The longest name a directory can hold, in bytes. -/
def nameLimit : Nat := 255

/-- The length from which the system refuses a path, in bytes. -/
def pathLimit : Nat := 4096

/-- Follow the parts between separators from a directory, as the system does:
every name that another part follows must be a directory that exists, so a
file there stops the walk with "not a directory" and a missing name with "no
such file"; `..` goes up from the directory actually reached. A name longer
than `nameLimit` is refused when it is looked up. -/
def walk (d : Disk) : List String → List String → Except IoError Target
  | dir, [] => .ok ⟨dir, none, false⟩
  | dir, part :: rest =>
    if part = "" || part = "." then walk d dir rest
    else if part = ".." then walk d dir.dropLast rest
    else
      let p := dir ++ [part]
      if nameLimit < part.utf8ByteSize then .error (IoError.ofSystem .nameTooLong)
      else if rest.all (· = "") then .ok ⟨dir, some part, !rest.isEmpty⟩
      else if d.isDir p then walk d p rest
      else if (d.fileAt? p).isSome then .error (IoError.ofSystem .notDirectory)
      else .error (IoError.ofSystem .notFound)

/-- Where a path leads from the working directory. The empty path leads
nowhere, a path with a NUL cannot be handed to the system, and the system
refuses a path of `pathLimit` bytes or more before looking at it. -/
def target (d : Disk) (path : String) : Except IoError Target :=
  if path.contains (Char.ofNat 0) then .error (IoError.ofSystem .nulInPath)
  else if path.isEmpty then .error (IoError.ofSystem .notFound)
  else if pathLimit ≤ path.utf8ByteSize then .error (IoError.ofSystem .nameTooLong)
  else d.walk (if Path.isAbsolute path then [] else d.workdir) (path.splitOn "/")

/-- Read a file as UTF-8 text. A directory cannot be read, and a file named with
a separator after it is not a directory. -/
def readText (d : Disk) (path : String) : Except IoError String :=
  match d.target path with
  | .error e => .error e
  | .ok ⟨_, none, _⟩ => .error (IoError.ofSystem .isDirectory)
  | .ok ⟨dir, some n, trailing⟩ =>
    let p := dir ++ [n]
    if d.isDir p then .error (IoError.ofSystem .isDirectory)
    else match d.fileAt? p with
      | some bytes =>
        if trailing then .error (IoError.ofSystem .notDirectory)
        else match Utf8.decode bytes with
          | .ok s => .ok s
          | .error _ => .error (IoError.ofSystem .invalidData)
      | none => .error (IoError.ofSystem .notFound)

def pathExists (d : Disk) (path : String) : Bool :=
  match d.target path with
  | .error _ => false
  | .ok ⟨_, none, _⟩ => true
  | .ok ⟨dir, some n, trailing⟩ => d.isDir (dir ++ [n]) || (!trailing && (d.fileAt? (dir ++ [n])).isSome)

def isFile (d : Disk) (path : String) : Bool :=
  match d.target path with
  | .ok ⟨dir, some n, false⟩ => (d.fileAt? (dir ++ [n])).isSome
  | _ => false

/-- Create a new file in an existing directory. A name with a separator after
it cannot be created as a file, and nothing is created where a file or a
directory already is. -/
def createNew (d : Disk) (path : String) (contents : List UInt8) : Except IoError Disk :=
  match d.target path with
  | .error e => .error e
  | .ok ⟨_, none, _⟩ => .error (IoError.ofSystem .alreadyExists)
  | .ok ⟨dir, some n, trailing⟩ =>
    let p := dir ++ [n]
    if trailing then .error (IoError.ofSystem .isDirectory)
    else if d.isDir p || (d.fileAt? p).isSome then .error (IoError.ofSystem .alreadyExists)
    else .ok { d with files := d.files ++ [(p, contents)] }

/-- Write a file, creating its directories and replacing what was there. -/
def write (d : Disk) (path : String) (contents : List UInt8) : Disk :=
  match d.place path with
  | none => d
  | some p =>
    let parents := (List.range p.length).map p.take
    let dirs := parents.foldl (fun ds q => if ds.contains q then ds else ds ++ [q]) d.dirs
    let files := d.files.filter (·.1 != p)
    { d with dirs := dirs, files := files ++ [(p, contents)] }

/-- Remove a file; whether there was one. -/
def remove (d : Disk) (path : String) : Bool × Disk :=
  match d.place path with
  | none => (false, d)
  | some p =>
    if (d.fileAt? p).isSome then (true, { d with files := d.files.filter (·.1 != p) }) else (false, d)

def empty (workdir : List String) : Disk :=
  ⟨workdir, [], (List.range (workdir.length + 1)).map workdir.take⟩

def makeDirs (d : Disk) (path : String) : Disk :=
  match d.place path with
  | none => d
  | some p =>
    let all := (List.range (p.length + 1)).map p.take
    { d with dirs := all.foldl (fun ds q => if ds.contains q then ds else ds ++ [q]) d.dirs }

def filesBelow (d : Disk) (base : List String) : List (String × List UInt8) :=
  d.files.filterMap fun (p, bytes) =>
    if p.take base.length == base && base.length < p.length then
      some ("/".intercalate (p.drop base.length), bytes)
    else none

end Disk

inductive Store where
  | exact (files : List (String × String)) (dirs : Option (List String)) (hidden : List String)
  | keyed (files : List (String × String))
  | disk (d : Disk)
  deriving Inhabited

namespace Store

def notFound : IoError := ⟨.notFound, "no such file"⟩

def alreadyExists : IoError := ⟨.alreadyExists, "file exists"⟩

def keyedGet? (files : List (String × String)) (path : String) : Option String :=
  (files.find? fun f => Path.same f.1 path).map (·.2)

/-- Set a file of a keyed store; an equal path keeps its first text. -/
def keyedSet (files : List (String × String)) (path contents : String) : List (String × String) :=
  if files.any fun f => Path.same f.1 path then
    files.map fun f => if Path.same f.1 path then (f.1, contents) else f
  else files ++ [(path, contents)]

def readText : Store → String → Except IoError String
  | .exact files _ _, path =>
    match (files.find? (·.1 == path)) with
    | some f => .ok f.2
    | none => .error notFound
  | .keyed files, path =>
    match keyedGet? files path with
    | some s => .ok s
    | none => .error notFound
  | .disk d, path => d.readText path

/-- Whether a path exists; a racing file of the exact store is not seen. -/
def pathExists : Store → String → Bool
  | .exact files _ hidden, path => files.any (·.1 == path) && !hidden.contains path
  | .keyed files, path => (keyedGet? files path).isSome
  | .disk d, path => d.pathExists path

/-- Whether a path is a file; only the disk has directories. -/
def isFile : Store → String → Bool
  | .disk d, path => d.isFile path
  | s, path => s.pathExists path

def createNew : Store → String → List UInt8 → Except IoError Store
  | .exact files dirs hidden, path, contents =>
    let parentOk := match dirs with
      | none => true
      | some ds => ds.contains ((Path.parent? path).getD "")
    if !parentOk then .error notFound
    else if files.any (·.1 == path) then .error alreadyExists
    else
      match Utf8.decode contents with
      | .ok text => .ok (.exact (files ++ [(path, text)]) dirs hidden)
      | .error _ => .error ⟨.invalidData, "stream did not contain valid UTF-8"⟩
  | .keyed files, path, contents =>
    match Utf8.decode contents with
    | .error _ => .error ⟨.invalidData, "stream did not contain valid UTF-8"⟩
    | .ok text =>
      if (keyedGet? files path).isSome then .error alreadyExists
      else .ok (.keyed (files ++ [(path, text)]))
  | .disk d, path, contents => (d.createNew path contents).map .disk

end Store

/-- A source of random bytes. -/
inductive RandomSource where
  | pattern (bytes : List UInt8)
  | generator (state : UInt64)
  deriving Inhabited

namespace RandomSource

/-- One step of the SplitMix64 generator: the next state and its output word. -/
def splitMix (state : UInt64) : UInt64 × UInt64 :=
  let s := state + 0x9E3779B97F4A7C15
  let z := (s ^^^ (s >>> 30)) * 0xBF58476D1CE4E5B9
  let z := (z ^^^ (z >>> 27)) * 0x94D049BB133111EB
  (s, z ^^^ (z >>> 31))

def generate : Nat → UInt64 → List UInt8 × UInt64
  | 0, s => ([], s)
  | n + 1, s =>
    let (s, w) := splitMix s
    let (rest, s) := generate n s
    ((List.range 8).map (fun i => (w >>> (8 * i).toUInt64).toUInt8) ++ rest, s)

/-- Fill `n` bytes: the next source state and the bytes. -/
def fill (src : RandomSource) (n : Nat) : List UInt8 × RandomSource :=
  match src with
  | .pattern [] => (List.replicate n 0, src)
  | .pattern bs => ((List.range n).map fun i => bs.getD (i % bs.length) 0, src)
  | .generator s =>
    let (bytes, s) := generate ((n + 7) / 8) s
    (bytes.take n, .generator s)

end RandomSource

/-- A model of a machine. -/
structure Machine where
  env : Environment
  store : Store
  random : RandomSource
  /-- The process's generator, apart from the random source the host is given. -/
  threadRandom : RandomSource
  deriving Inhabited

instance : Host (StateM Machine) where
  envVar name := do return (← get).env.get? name
  readText path := do return (← get).store.readText path
  pathExists path := do return (← get).store.pathExists path
  isFile path := do return (← get).store.isFile path
  createNew path contents := do
    let m ← get
    match m.store.createNew path contents with
    | .ok store => set { m with store := store }; return .ok ()
    | .error e => return .error e
  randomBytes n := do
    let m ← get
    let (bytes, random) := m.random.fill n
    set { m with random := random }
    return bytes
  threadRandomBytes n := do
    let m ← get
    let (bytes, threadRandom) := m.threadRandom.fill n
    set { m with threadRandom := threadRandom }
    return bytes

end LayeredConfig
