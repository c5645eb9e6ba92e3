/-! File paths as texts with `/` as the separator. A path is read as an optional
root, an optional leading `.` (only when there is no root), and the names
between separators, where empty names and `.` are skipped and `..` stays a name
of its own. Two paths are the same when these components are; so `a//b`,
`a/./b` and `a/b/` are one path, while `./a` and `a` are two.

The parent of a path is its text up to the end of the second-to-last component,
or the root, the leading `.` or the empty text when there is none; the root and
the empty path have no parent. Joining a relative path appends it after a
separator unless the base is empty or ends in one; an absolute path replaces
the base. The extension is the text after the last dot of the last name, when
that dot is not the first character of the name. -/

namespace LayeredConfig

inductive PathPart where
  | root
  | current
  | parent
  | name (text : String)
  deriving DecidableEq, Inhabited

namespace Path

/-- The names between separators with the character position after each,
empty names and `.` left out. -/
def segments (s : String) : List (String × Nat) :=
  let rec go : List Char → Nat → List Char → List (String × Nat) → List (String × Nat)
    | [], pos, cur, acc =>
      let acc := if cur.isEmpty || cur == ['.'] then acc else (String.ofList cur.reverse, pos) :: acc
      acc.reverse
    | c :: rest, pos, cur, acc =>
      if c = '/' then
        let acc := if cur.isEmpty || cur == ['.'] then acc else (String.ofList cur.reverse, pos) :: acc
        go rest (pos + 1) [] acc
      else go rest (pos + 1) (c :: cur) acc
  go s.toList 0 [] []

def isAbsolute (s : String) : Bool := s.startsWith "/"

/-- Whether a relative path starts with a `.` component. -/
def hasLeadingCurrent (s : String) : Bool :=
  !isAbsolute s && (s == "." || s.startsWith "./")

def components (s : String) : List PathPart :=
  let start := if isAbsolute s then [PathPart.root] else if hasLeadingCurrent s then [.current] else []
  let body := (segments s).map fun (n, _) => if n = ".." then PathPart.parent else .name n
  start ++ body

def same (a b : String) : Bool := components a == components b

def parent? (s : String) : Option String :=
  let segs := segments s
  match segs.reverse with
  | _ :: prev :: _ => some (String.ofList (s.toList.take prev.2))
  | [_] =>
    if isAbsolute s then some "/" else if hasLeadingCurrent s then some "." else some ""
  | [] => if hasLeadingCurrent s then some "" else none

def join (base path : String) : String :=
  if isAbsolute path then path
  else if base.isEmpty || base.endsWith "/" then base ++ path
  else base ++ "/" ++ path

/-- The last name of a path, unless it is `..`. -/
def fileName? (s : String) : Option String :=
  match (components s).getLast? with
  | some (.name n) => some n
  | _ => none

/-- The text after the last dot of the last name, when the name has a dot that
is not its first character. -/
def extension? (s : String) : Option String :=
  (fileName? s).bind fun n =>
    let cs := n.toList
    match cs.reverse.idxOf? '.' with
    | none => none
    | some fromEnd =>
      let dot := cs.length - 1 - fromEnd
      if dot = 0 then none else some (String.ofList (cs.drop (dot + 1)))

end Path

end LayeredConfig
