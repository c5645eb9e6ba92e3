/-! UTF-8 bytes and text. Decoding accepts exactly the well-formed sequences: no
overlong forms, no surrogates, nothing above U+10FFFF. A failure reports how
many bytes from the start were valid, and the length of the invalid sequence
found there, or no length when the bytes end inside a sequence that could still
have been completed. -/

namespace LayeredConfig

namespace Utf8

structure DecodeError where
  validUpTo : Nat
  errorLength : Option Nat
  deriving DecidableEq, Inhabited

def DecodeError.message (e : DecodeError) : String :=
  match e.errorLength with
  | some n => "invalid utf-8 sequence of " ++ toString n ++ " bytes from index " ++ toString e.validUpTo
  | none => "incomplete utf-8 byte sequence from index " ++ toString e.validUpTo

def encode (s : String) : List UInt8 := s.toUTF8.toList

def isContinuation (b : UInt8) : Bool := 0x80 ≤ b && b ≤ 0xBF

/-- The number of bytes a sequence has by its first byte; zero when no sequence
starts with it. -/
def width (b : UInt8) : Nat :=
  if b < 0x80 then 1
  else if b < 0xC2 then 0
  else if b < 0xE0 then 2
  else if b < 0xF0 then 3
  else if b < 0xF5 then 4
  else 0

/-- Whether the second byte is allowed after a first byte of a three- or four-byte
sequence, which rules out overlong forms, surrogates and values past U+10FFFF. -/
def secondAllowed (first second : UInt8) : Bool :=
  if first = 0xE0 then 0xA0 ≤ second && second ≤ 0xBF
  else if first = 0xED then 0x80 ≤ second && second ≤ 0x9F
  else if first = 0xF0 then 0x90 ≤ second && second ≤ 0xBF
  else if first = 0xF4 then 0x80 ≤ second && second ≤ 0x8F
  else isContinuation second

/-- Decode one sequence at the start of the bytes: its code point, its length and
the rest, or the failure length (`none` when the bytes end too early). -/
def decodeOne : List UInt8 → Except (Option Nat) (Nat × Nat × List UInt8)
  | [] => .error none
  | b :: rest =>
    match width b, rest with
    | 1, _ => .ok (b.toNat, 1, rest)
    | 2, c :: rest' =>
      if isContinuation c then .ok ((b.toNat % 32) * 64 + c.toNat % 64, 2, rest') else .error (some 1)
    | 3, c :: rest' =>
      if !secondAllowed b c then .error (some 1)
      else match rest' with
        | d :: rest'' =>
          if isContinuation d then .ok (((b.toNat % 16) * 64 + c.toNat % 64) * 64 + d.toNat % 64, 3, rest'')
          else .error (some 2)
        | [] => .error none
    | 4, c :: rest' =>
      if !secondAllowed b c then .error (some 1)
      else match rest' with
        | d :: rest'' =>
          if !isContinuation d then .error (some 2)
          else match rest'' with
            | e :: rest''' =>
              if isContinuation e then
                .ok ((((b.toNat % 8) * 64 + c.toNat % 64) * 64 + d.toNat % 64) * 64 + e.toNat % 64, 4,
                  rest''')
              else .error (some 3)
            | [] => .error none
        | [] => .error none
    | 0, _ => .error (some 1)
    | _, _ => .error none

/-- Decode all sequences, counting the bytes read. -/
def decodeFrom : Nat → Nat → List UInt8 → List Char → Except DecodeError String
  | 0, _, _, acc => .ok (String.ofList acc.reverse)
  | fuel + 1, at_, bytes, acc =>
    match bytes with
    | [] => .ok (String.ofList acc.reverse)
    | _ =>
      match decodeOne bytes with
      | .ok (n, used, rest) => decodeFrom fuel (at_ + used) rest (Char.ofNat n :: acc)
      | .error len => .error ⟨at_, len⟩

def decode (bytes : List UInt8) : Except DecodeError String :=
  decodeFrom (bytes.length + 1) 0 bytes []

end Utf8

end LayeredConfig
