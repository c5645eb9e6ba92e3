import LayeredConfig.Tree.Path

/-! Dotted references such as `database.hosts[1].name` name a node of a tree
by text. The text is cut at every dot; in each part a bracket starts a token at
its position: the text before the first bracket is a token of its own when it is
not empty, each `[...]` is a token (an unclosed bracket takes the rest of the
part), and the text after the last closing bracket is a token when not empty.
A part without brackets is one token, empty or not. Tokens are then followed
from the root: a token is a key in an object, an unsigned decimal index (an
optional `+`, ASCII digits, at most `2 ^ 64 - 1`) in an array, and nothing else
leads anywhere. The empty reference names nothing. -/

namespace LayeredConfig

namespace Reference

/-- Tokens of the bracket groups of a part that starts with `[`. -/
def bracketTokens : Nat → List Char → List String
  | 0, _ => []
  | fuel + 1, '[' :: rest =>
    match rest.idxOf? ']' with
    | some close =>
      String.ofList (rest.take close) :: bracketTokens fuel (rest.drop (close + 1))
    | none => [String.ofList rest]
  | _, [] => []
  | _, other => [String.ofList other]

def partTokens (part : List Char) : List String :=
  match part.idxOf? '[' with
  | none => [String.ofList part]
  | some 0 => bracketTokens (part.length + 1) part
  | some open_ => String.ofList (part.take open_) :: bracketTokens (part.length + 1) (part.drop open_)

def tokens (reference : String) : List String :=
  (reference.toList.splitOn '.').flatMap partTokens

/-- An unsigned decimal index: optional `+`, at least one ASCII digit, below `2 ^ 64`. -/
def index? (token : String) : Option Nat :=
  let digits := match token.toList with
    | '+' :: rest => rest
    | cs => cs
  if digits.isEmpty || !digits.all Char.isDigit then none
  else
    let n := digits.foldl (fun acc d => acc * 10 + (d.toNat - 48)) 0
    if n < Nat.pow 2 64 then some n else none

def follow : Value → String → Option Value
  | .obj fields, token => Fields.get? fields token
  | .arr items, token => (index? token).bind fun i => items[i]?
  | _, _ => none

end Reference

def Value.lookup (tree : Value) (reference : String) : Option Value :=
  if reference.isEmpty then none
  else (Reference.tokens reference).foldlM Reference.follow tree

end LayeredConfig
