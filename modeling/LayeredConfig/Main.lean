import LayeredConfig.Cli.Run
import LayeredConfig.Host.Machine

/-! The program itself: the machine operations on the running system, and
`main`, which runs the command line in the current directory and prints what it
prints, returning its exit status. Failures of the system are reported with the
operating system's wording and error number, as the library expects. -/

namespace LayeredConfig

def osErrorText (code : UInt32) : String :=
  match code with
  | 1 => "Operation not permitted"
  | 2 => "No such file or directory"
  | 5 => "Input/output error"
  | 13 => "Permission denied"
  | 17 => "File exists"
  | 20 => "Not a directory"
  | 21 => "Is a directory"
  | 22 => "Invalid argument"
  | 28 => "No space left on device"
  | 30 => "Read-only file system"
  | 36 => "File name too long"
  | 40 => "Too many levels of symbolic links"
  | c => "Unknown error " ++ toString c

def osCode : IO.Error → Option UInt32
  | .alreadyExists _ c _ | .otherError c _ | .resourceBusy c _ | .resourceVanished c _
  | .unsupportedOperation c _ | .hardwareFault c _ | .unsatisfiedConstraints c _
  | .illegalOperation c _ | .protocolError c _ | .timeExpired c _ | .interrupted _ c _
  | .noFileOrDirectory _ c _ | .invalidArgument _ c _ | .permissionDenied _ c _
  | .resourceExhausted _ c _ | .inappropriateType _ c _ | .noSuchThing _ c _ => some c
  | _ => none

/-- A system failure as the library sees it. Error numbers may come negated,
as the runtime's event library reports them. -/
def systemError (e : IO.Error) : IoError :=
  let code := (osCode e).map fun c => if c ≥ 0x80000000 then 0 - c else c
  match code with
  | some 2 => IoError.ofSystem .notFound
  | some 17 => IoError.ofSystem .alreadyExists
  | some 20 => IoError.ofSystem .notDirectory
  | some 21 => IoError.ofSystem .isDirectory
  | some c => ⟨.other, osErrorText c ++ " (os error " ++ toString c ++ ")"⟩
  | none => ⟨.other, toString e⟩

def canOpen (path : String) : IO Bool := do
  try
    let _ ← IO.FS.Handle.mk path .read
    return true
  catch _ => return false

/-- Whether a path is a regular file: it opens, and reading it does not fail as
reading a directory does. -/
def isRegularFile (path : String) : IO Bool := do
  try
    let h ← IO.FS.Handle.mk path .read
    let _ ← h.read 1
    return true
  catch _ => return false

instance : Host IO where
  envVar name := do
    if Environment.validName name then IO.getEnv name else return none
  readText path := do
    if path.contains (Char.ofNat 0) then return .error (IoError.ofSystem .nulInPath)
    try
      let bytes ← IO.FS.readBinFile path
      match Utf8.decode bytes.toList with
      | .ok s => return .ok s
      | .error _ => return .error (IoError.ofSystem .invalidData)
    catch e => return .error (systemError e)
  pathExists path :=
    if path.isEmpty || path.contains (Char.ofNat 0) then return false else canOpen path
  isFile path := if path.isEmpty || path.contains (Char.ofNat 0) then return false else isRegularFile path
  createNew path contents := do
    if path.contains (Char.ofNat 0) then return .error (IoError.ofSystem .nulInPath)
    try
      let h ← IO.FS.Handle.mk path .writeNew
      h.write (ByteArray.mk contents.toArray)
      h.flush
      return .ok ()
    catch e => return .error (systemError e)
  randomBytes n := do
    let bytes ← IO.getRandomBytes n.toUSize
    return bytes.toList
  threadRandomBytes n := do
    let bytes ← IO.getRandomBytes n.toUSize
    return bytes.toList

end LayeredConfig

/-- Run the command line in the current directory. The account's home directory
is only needed when `HOME` is unset or empty; the root directory stands in for it. -/
def main (args : List String) : IO UInt32 := do
  let cwd ← IO.currentDir
  let outcome ← (LayeredConfig.Cli.run args cwd.toString "/" : IO LayeredConfig.Cli.Outcome)
  IO.print outcome.stdout
  IO.eprint outcome.stderr
  return outcome.status.toUInt32
