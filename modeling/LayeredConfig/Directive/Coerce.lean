import LayeredConfig.Tree.Basic
import LayeredConfig.Text.Blank

/-! Coercion of resolved values to booleans and integers. An absent value and
the empty text are *absent*, `null` stays *null*, everything else gives a value.

A boolean is false exactly for `false`, a number equal to zero, and the texts
`0`, `false` and `no` in any ASCII case; arrays and objects are true.

An integer is a double. Numbers keep their value (as the nearest double);
booleans, arrays and objects give NaN. A text is read by its leading digits:
blanks at the start are skipped, one `-` or `+` may follow, and in radix 16 a
`0x` or `0X`; then as many digits valid in the radix as follow (letters of
either case count from ten) are accumulated as `acc * radix + digit`, each
product and sum rounded to a double; no digit at all gives NaN. -/

namespace LayeredConfig

/-- The outcome of a coercion. -/
inductive Coerced (α : Type) where
  | absent
  | null
  | value (a : α)
  deriving Inhabited

namespace Coerced

variable {α : Type}

def value? : Coerced α → Option α
  | .value a => some a
  | _ => none

end Coerced

namespace Coerce

/-- Whether a text is one of `0`, `false`, `no`, ignoring ASCII case. -/
def isFalseText (s : String) : Bool :=
  let lower := String.ofList (s.toList.map Char.toLower)
  lower == "0" || lower == "false" || lower == "no"

def toBool : Option Value → Coerced Bool
  | none => .absent
  | some .null => .null
  | some (.str s) => if s.isEmpty then .absent else .value (!isFalseText s)
  | some (.bool b) => .value b
  | some (.num n) => .value (!n.toBinary64.isZero)
  | some (.arr _) => .value true
  | some (.obj _) => .value true

def digitValue (radix : Nat) (c : Char) : Option Nat :=
  let v :=
    if '0' ≤ c ∧ c ≤ '9' then some (c.toNat - 48)
    else if 'a' ≤ c ∧ c ≤ 'z' then some (c.toNat - 87)
    else if 'A' ≤ c ∧ c ≤ 'Z' then some (c.toNat - 55)
    else none
  v.bind fun d => if d < radix then some d else none

/-- Accumulate leading digits; `none` when there is no digit. -/
def accumulate (radix : Nat) : Option Binary64 → List Char → Option Binary64
  | acc, [] => acc
  | acc, c :: rest =>
    match digitValue radix c with
    | none => acc
    | some d =>
      let base := acc.getD (Binary64.zero false)
      accumulate radix (some (base * Binary64.ofNat radix + Binary64.ofNat d)) rest

/-- Read the leading integer of a text as a double; NaN when there is none. -/
def leadingInteger (s : String) (radix : Nat) : Binary64 :=
  let cs := Text.trimStartBlank s.toList
  let (negative, cs) :=
    match cs with
    | '-' :: rest => (true, rest)
    | '+' :: rest => (false, rest)
    | _ => (false, cs)
  let cs :=
    if radix = 16 then
      match cs with
      | '0' :: 'x' :: rest => rest
      | '0' :: 'X' :: rest => rest
      | _ => cs
    else cs
  match accumulate radix none cs with
  | some v => if negative then v.neg else v
  | none => Binary64.nan

def toInt (v : Option Value) (radix : Nat) : Coerced Binary64 :=
  match v with
  | none => .absent
  | some .null => .null
  | some (.str s) => if s.isEmpty then .absent else .value (leadingInteger s radix)
  | some (.num n) => .value n.toBinary64
  | some _ => .value Binary64.nan

end Coerce

end LayeredConfig
