import LayeredConfig.Number.Binary64

/-! Configuration trees. A tree is a JSON value whose objects keep their fields
in insertion order: an object is a list of key and value pairs with no key twice.
Setting a key that is present replaces its value where it stands, setting a new
key appends it, and erasing a key keeps the order of the others; these three
operations on field lists are the only way the library edits objects.

Numbers are integers in the range of 64-bit words, unsigned or negative signed,
or finite doubles; a number read from text keeps that distinction. -/

namespace LayeredConfig

/-- A number of a tree: an integer between `-2 ^ 63` and `2 ^ 64`, or a finite
double. -/
inductive Number where
  | int (value : Int)
  | float (value : Binary64)
  deriving DecidableEq, Inhabited

namespace Number

def toBinary64 : Number → Binary64
  | .int i => Binary64.ofInt i
  | .float x => x

end Number

/-- A configuration tree. -/
inductive Value where
  | null
  | bool (b : Bool)
  | num (n : Number)
  | str (s : String)
  | arr (items : List Value)
  | obj (fields : List (String × Value))
  deriving Inhabited

namespace Fields

variable {α : Type}

def get? : List (String × α) → String → Option α
  | [], _ => none
  | (k, v) :: rest, key => if k = key then some v else get? rest key

/-- Set the value under a key: in place when the key is present, appended
at the end otherwise. -/
def set : List (String × α) → String → α → List (String × α)
  | [], key, value => [(key, value)]
  | (k, v) :: rest, key, value =>
    if k = key then (key, value) :: rest else (k, v) :: set rest key value

/-- Remove a key, keeping the order of the other fields. -/
def erase : List (String × α) → String → List (String × α)
  | [], _ => []
  | (k, v) :: rest, key => if k = key then rest else (k, v) :: erase rest key

/-- Change the value under a key by a function, when the key is present. -/
def modify? : List (String × α) → String → (α → Option α) → Option (List (String × α))
  | [], _, _ => none
  | (k, v) :: rest, key, f =>
    if k = key then (f v).map fun w => (k, w) :: rest
    else (modify? rest key f).map fun r => (k, v) :: r

def keys (fs : List (String × α)) : List String := fs.map Prod.fst

@[simp] theorem get?_nil (key : String) : get? ([] : List (String × α)) key = none := rfl

@[simp] theorem get?_set_self (fs : List (String × α)) (key : String) (value : α) :
    get? (set fs key value) key = some value := by
  induction fs with
  | nil => simp [set, get?]
  | cons kv rest ih =>
    obtain ⟨k, v⟩ := kv
    by_cases h : k = key
    · simp [set, get?, h]
    · simp [set, get?, h, ih]

theorem get?_set_ne (fs : List (String × α)) {key other : String} (value : α)
    (h : other ≠ key) : get? (set fs key value) other = get? fs other := by
  induction fs with
  | nil => simp [set, get?, Ne.symm h]
  | cons kv rest ih =>
    obtain ⟨k, v⟩ := kv
    by_cases hk : k = key
    · subst hk; simp [set, get?, Ne.symm h]
    · simp [set, get?, hk, ih]

end Fields

namespace Value

def fields? : Value → Option (List (String × Value))
  | .obj fs => some fs
  | _ => none

def field? (v : Value) (key : String) : Option Value :=
  v.fields?.bind fun fs => Fields.get? fs key

def empty : Value := .obj []

end Value

end LayeredConfig
