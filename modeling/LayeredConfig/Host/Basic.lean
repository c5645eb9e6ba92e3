/-! What resolving a tree needs from the machine it runs on: environment
variables, reading a file as text, whether a path exists or is a file, creating
a file that must not exist yet, and random bytes. The operations are those of a
monad, so the same resolver runs against the real machine and against a model
of one.

Input and output failures carry a kind, which the resolver inspects (a file
that already exists is not an error when creating a secret), and their text. -/

namespace LayeredConfig

/-- The kinds of input and output failure that the library tells apart. -/
inductive IoErrorKind where
  | notFound
  | alreadyExists
  | isDirectory
  | notDirectory
  | invalidData
  | nameTooLong
  | nulInPath
  | other
  deriving DecidableEq, Inhabited

structure IoError where
  kind : IoErrorKind
  text : String
  deriving DecidableEq, Inhabited

namespace IoError

/-- The failures of the operating system, with its wording and error numbers. -/
def ofSystem : IoErrorKind → IoError
  | .notFound => ⟨.notFound, "No such file or directory (os error 2)"⟩
  | .alreadyExists => ⟨.alreadyExists, "File exists (os error 17)"⟩
  | .isDirectory => ⟨.isDirectory, "Is a directory (os error 21)"⟩
  | .notDirectory => ⟨.notDirectory, "Not a directory (os error 20)"⟩
  | .invalidData => ⟨.invalidData, "stream did not contain valid UTF-8"⟩
  | .nameTooLong => ⟨.nameTooLong, "File name too long (os error 36)"⟩
  | .nulInPath => ⟨.nulInPath, "file name contained an unexpected NUL byte"⟩
  | .other => ⟨.other, "Input/output error (os error 5)"⟩

end IoError

/-- The operations of a machine. -/
class Host (m : Type → Type) where
  /-- The value of an environment variable, if it is set. -/
  envVar : String → m (Option String)
  /-- The contents of a file as UTF-8 text. -/
  readText : String → m (Except IoError String)
  /-- Whether something exists at a path. -/
  pathExists : String → m Bool
  /-- Whether a regular file exists at a path. -/
  isFile : String → m Bool
  /-- Create a file that must not exist yet, with the given contents. -/
  createNew : String → List UInt8 → m (Except IoError Unit)
  /-- Random bytes from the host's own source. -/
  randomBytes : Nat → m (List UInt8)
  /-- Random bytes from the process's generator, which the host's source does not
  stand in for. -/
  threadRandomBytes : Nat → m (List UInt8)

end LayeredConfig
